import VaultChat.Proofs.Settings

/-!
# Documents that differ in one text

Two tables that are the same but for the value of one key stay so, whatever is added to them, because nothing that is
added depends on the texts in a table (`Steady`).  So two documents stay the same but for one text, once a pair has
set it (`Setting.IsAt.ofStatements?`), and documents that differ in the text of one setting make configurations that
differ in that setting only (`ofEntries?_twin`).
-/

namespace VaultChat

/-- What is said of a step holds of many. -/
theorem exists_foldlM_eq_some {α β : Type} {step : β → α → Option β} {rel : β → β → Prop} {l : List α} {b b' r : β}
    (hstep : ∀ b b' a r, rel b b' → step b a = some r → ∃ r', step b' a = some r' ∧ rel r r')
    (h : rel b b') (hr : l.foldlM step b = some r) : ∃ r', l.foldlM step b' = some r' ∧ rel r r' := by
  induction l generalizing b b' with
  | nil =>
    cases hr
    exact ⟨b', rfl, h⟩
  | cons a l ih =>
    obtain ⟨b₁, hb₁, hr⟩ := Option.bind_eq_some_iff.1 hr
    obtain ⟨b₁', hb₁', h₁⟩ := hstep b b' a b₁ h hb₁
    obtain ⟨r', hr', hrel⟩ := ih h₁ hr
    exact ⟨r', Option.bind_eq_some_iff.2 ⟨b₁', hb₁', hr'⟩, hrel⟩

namespace Toml.Entries

variable {R S : Value → Value → Prop} {key k : String} {es es' r : Entries} {v v' : Value}

theorem find?_cons (e : String × Value) (es : Entries) :
    find? (e :: es) k = if e.1 = k then some e.2 else find? es k := by
  by_cases h : e.1 = k
  · simp [find?, h]
  · simp [find?, h]

/-- The two tables are the same but for the values of the key, which are related. -/
inductive Twin (R : Value → Value → Prop) (key : String) : Entries → Entries → Prop where
  | here {v v' : Value} (es : Entries) (h : R v v') : Twin R key ((key, v) :: es) ((key, v') :: es)
  | behind {es es' : Entries} {e : String × Value} (he : e.1 ≠ key) (h : Twin R key es es') :
      Twin R key (e :: es) (e :: es')

namespace Twin

theorem find?_self (h : Twin R key es es') : ∃ v v', es.find? key = some v ∧ es'.find? key = some v' ∧ R v v' := by
  induction h with
  | here es h => exact ⟨_, _, by rw [find?_cons, if_pos rfl], by rw [find?_cons, if_pos rfl], h⟩
  | behind he _ ih =>
    obtain ⟨v, v', hv, hv', hR⟩ := ih
    exact ⟨v, v', by rw [find?_cons, if_neg he, hv], by rw [find?_cons, if_neg he, hv'], hR⟩

theorem find?_of_ne (h : Twin R key es es') (hk : k ≠ key) : es'.find? k = es.find? k := by
  induction h with
  | here es h => rw [find?_cons, find?_cons, if_neg hk.symm, if_neg hk.symm]
  | behind _ _ ih => rw [find?_cons, find?_cons, ih]

theorem put_of_ne (h : Twin R key es es') (hk : k ≠ key) (w : Value) : Twin R key (es.put k w) (es'.put k w) := by
  induction h with
  | here es h =>
    simp only [put, if_neg hk.symm]
    exact .here _ h
  | @behind es es' e he h ih =>
    by_cases hek : e.1 = k
    · simp only [put, if_pos hek]
      exact .behind hk h
    · simp only [put, if_neg hek]
      exact .behind he ih

theorem put_self (h : Twin R key es es') {w w' : Value} (hw : S w w') :
    Twin S key (es.put key w) (es'.put key w') := by
  induction h with
  | here es h =>
    simp only [put, if_true]
    exact .here _ hw
  | behind he _ ih =>
    simp only [put, if_neg he]
    exact .behind he ih

end Twin

theorem twin_put (h : R v v') (es : Entries) : Twin R key (es.put key v) (es.put key v') := by
  induction es with
  | nil => exact .here _ h
  | cons e es ih =>
    by_cases he : e.1 = key
    · simp only [put, if_pos he]
      exact .here _ h
    · simp only [put, if_neg he]
      exact .behind he ih

/-- The change goes the same way in tables that differ in related values of the key. -/
def Respects (R : Value → Value → Prop) (key : String) (change : Origin → Entries → Option Entries) : Prop :=
  ∀ ⦃origin es es' r⦄, Twin R key es es' → change origin es = some r →
    ∃ r', change origin es' = some r' ∧ Twin R key r r'

/-- Related values are both tables of one origin, which may change, or none of them can be added to. -/
structure IsMild (R : Value → Value → Prop) : Prop where
  tables : ∀ {latest earlier v'}, ¬ R (.tables latest earlier) v'
  table : ∀ {origin inner v'}, R (.table origin inner) v' → ∃ inner', v' = .table origin inner' ∧
    ∀ origin', R (.table origin' inner) (.table origin' inner')

/-- What is added to a table under a path goes the same way, if it does so in the tables that are related. -/
theorem respects_update {made : Origin} {change : Origin → Entries → Option Entries} {path : List String}
    (hR : IsMild R) (hchange : Respects R key change)
    (hinner : ∀ {origin inner inner' path r}, R (.table origin inner) (.table origin inner') →
      update made change path origin inner = some r →
      ∃ r', update made change path origin inner' = some r' ∧ R (.table origin r) (.table origin r')) :
    Respects R key (update made change path) := by
  intro origin es es' r h hr
  cases path with
  | nil => exact hchange h hr
  | cons k path =>
    rw [update] at hr ⊢
    by_cases hk : k = key
    · subst hk
      obtain ⟨v, v', hv, hv', hvv'⟩ := h.find?_self
      rw [hv] at hr
      rw [hv']
      cases v with
      | table o inner =>
        obtain ⟨inner', rfl, htable⟩ := hR.table hvv'
        dsimp only at hr ⊢
        split at hr
        · cases hr
        · rename_i hmade
          obtain ⟨r₁, hr₁, rfl⟩ := Option.map_eq_some_iff.1 hr
          obtain ⟨r₁', hr₁', hrelated⟩ := hinner (htable o) hr₁
          rw [if_neg hmade, hr₁']
          exact ⟨_, rfl, h.put_self hrelated⟩
      | tables => exact absurd hvv' hR.tables
      | text | integer | boolean | float | moment | array | inline => cases hr
    · rw [h.find?_of_ne hk]
      cases hfind : es.find? k with
      | none =>
        rw [hfind] at hr
        obtain ⟨r₁, hr₁, rfl⟩ := Option.map_eq_some_iff.1 hr
        exact ⟨_, Option.map_eq_some_iff.2 ⟨r₁, hr₁, rfl⟩, h.put_of_ne hk _⟩
      | some v =>
        rw [hfind] at hr
        cases v with
        | table o inner =>
          dsimp only at hr ⊢
          split at hr
          · cases hr
          · rename_i hmade
            obtain ⟨r₁, hr₁, rfl⟩ := Option.map_eq_some_iff.1 hr
            rw [if_neg hmade, hr₁]
            exact ⟨_, rfl, h.put_of_ne hk _⟩
        | tables latest earlier =>
          obtain ⟨r₁, hr₁, rfl⟩ := Option.map_eq_some_iff.1 hr
          exact ⟨_, Option.map_eq_some_iff.2 ⟨r₁, hr₁, rfl⟩, h.put_of_ne hk _⟩
        | text | integer | boolean | float | moment | array | inline => cases hr

theorem update_of_table {made origin origin' : Origin} {change : Origin → Entries → Option Entries} {inner : Entries}
    (h : es.find? k = some (.table origin inner)) (hmade : ¬ (made = .dotted ∧ origin = .header)) :
    update made change [k] origin' es = (change origin inner).map fun inner => es.put k (.table origin inner) := by
  rw [update, h]
  exact if_neg hmade

theorem update_of_missing {made origin : Origin} {change : Origin → Entries → Option Entries}
    (h : es.find? k = none) :
    update made change [k] origin es = (change made []).map fun inner => es.put k (.table made inner) := by
  rw [update, h]
  rfl

/-! ### What can be added -/

/-- A pair goes to the end of a table that does not have its key. -/
def newPair (pathKey : KeyPath) (v : Value) (origin : Origin) (es : Entries) : Option Entries :=
  if decide (origin = .dotted) = pathKey.parents.isEmpty then none
  else if (es.find? pathKey.last).isSome then none
  else some (es.put pathKey.last v)

def newTable (pathKey : KeyPath) (_ : Origin) (es : Entries) : Option Entries :=
  match es.find? pathKey.last with
  | none => some (es.put pathKey.last (.table .header []))
  | some (.table .implied inner) => some (es.put pathKey.last (.table .header inner))
  | some _ => none

def newElement (pathKey : KeyPath) (_ : Origin) (es : Entries) : Option Entries :=
  match es.find? pathKey.last with
  | none => some (es.put pathKey.last (.tables [] []))
  | some (.tables latest earlier) => some (es.put pathKey.last (.tables [] (latest :: earlier)))
  | some _ => none

variable {pathKey : KeyPath} {w : Value}

theorem respects_newPair : Respects R key (newPair pathKey w) := by
  intro origin es es' r h hr
  unfold newPair at hr ⊢
  split at hr
  · cases hr
  rename_i horigin
  rw [if_neg horigin]
  split at hr
  · cases hr
  rename_i hfind
  cases hr
  have hne : pathKey.last ≠ key := by
    rintro rfl
    obtain ⟨v, v', hv, -, -⟩ := h.find?_self
    rw [hv] at hfind
    exact hfind rfl
  rw [h.find?_of_ne hne, if_neg hfind]
  exact ⟨_, rfl, h.put_of_ne hne w⟩

theorem respects_newTable (hR : IsMild R) : Respects R key (newTable pathKey) := by
  intro origin es es' r h hr
  unfold newTable at hr ⊢
  by_cases hk : pathKey.last = key
  · rw [hk] at hr ⊢
    obtain ⟨v, v', hv, hv', hvv'⟩ := h.find?_self
    rw [hv] at hr
    rw [hv']
    split at hr
    · cases ‹some v = none›
    · rename_i inner heq
      cases heq
      cases hr
      obtain ⟨inner', rfl, htable⟩ := hR.table hvv'
      exact ⟨_, rfl, h.put_self (htable .header)⟩
    · cases hr
  · rw [h.find?_of_ne hk]
    split at hr
    · cases hr
      exact ⟨_, rfl, h.put_of_ne hk _⟩
    · cases hr
      exact ⟨_, rfl, h.put_of_ne hk _⟩
    · cases hr

theorem respects_newElement (hR : IsMild R) : Respects R key (newElement pathKey) := by
  intro origin es es' r h hr
  unfold newElement at hr ⊢
  by_cases hk : pathKey.last = key
  · rw [hk] at hr
    obtain ⟨v, v', hv, -, hvv'⟩ := h.find?_self
    rw [hv] at hr
    split at hr
    · cases ‹some v = none›
    · rename_i heq
      cases heq
      exact absurd hvv' hR.tables
    · cases hr
  · rw [h.find?_of_ne hk]
    split at hr
    · cases hr
      exact ⟨_, rfl, h.put_of_ne hk _⟩
    · cases hr
      exact ⟨_, rfl, h.put_of_ne hk _⟩
    · cases hr

theorem addPair_eq : addPair pathKey w = update .dotted (newPair pathKey w) pathKey.parents := rfl

theorem addTable_eq : addTable pathKey = update .implied (newTable pathKey) pathKey.parents .header := rfl

theorem addElement_eq : addElement pathKey = update .implied (newElement pathKey) pathKey.parents .header := rfl

/-! ### Two levels -/

section levels

variable {t t' : String} {i : Nat} {made : Origin} {change : Origin → Entries → Option Entries} {path : List String}

/-- The two texts in the place of a value. -/
def Texts (t t' : String) (v v' : Value) : Prop := v = .text t ∧ v' = .text t'

/-- Two values that differ in what they give for a key: tables with the two texts under it, or arrays with the two
texts at an index. -/
inductive Groups (t t' : String) (k : String) (i : Nat) : Value → Value → Prop where
  | table {inner inner' : Entries} (origin : Origin) (h : Twin (Texts t t') k inner inner') :
      Groups t t' k i (.table origin inner) (.table origin inner')
  | inline {inner inner' : Entries} (h : Twin (Texts t t') k inner inner') :
      Groups t t' k i (.inline inner) (.inline inner')
  | array (before after : List Value) (h : before.length = i) :
      Groups t t' k i (.array (before ++ .text t :: after)) (.array (before ++ .text t' :: after))

theorem isMild_text : IsMild (Texts t t') where
  tables := fun h => nomatch h.1
  table := fun h => nomatch h.1

theorem isMild_group : IsMild (Groups t t' k i) where
  tables := nofun
  table := by
    rintro origin inner v' ⟨⟩
    exact ⟨_, rfl, fun origin' => .table origin' ‹_›⟩

/-- A change that goes the same way in documents that differ in one text of a group, and in the groups. -/
def Steady (t t' : String) (k : String) (i : Nat) (key : String)
    (change : Origin → Entries → Option Entries) : Prop :=
  Respects (Texts t t') k change ∧ Respects (Groups t t' k i) key change

theorem Steady.update (h : Steady t t' k i key change) : Steady t t' k i key (update made change path) := by
  have htext {path : List String} : Respects (Texts t t') k (Entries.update made change path) :=
    respects_update isMild_text h.1 fun htable _ => nomatch htable.1
  refine ⟨htext, respects_update isMild_group h.2 fun {origin inner inner' path r} hgroup hr => ?_⟩
  cases hgroup with
  | table _ htwin =>
    obtain ⟨r', hr', htwin'⟩ := htext htwin hr
    exact ⟨r', hr', .table origin htwin'⟩

theorem steady_newPair : Steady t t' k i key (newPair pathKey w) := ⟨respects_newPair, respects_newPair⟩

theorem steady_newTable : Steady t t' k i key (newTable pathKey) :=
  ⟨respects_newTable isMild_text, respects_newTable isMild_group⟩

theorem steady_newElement : Steady t t' k i key (newElement pathKey) :=
  ⟨respects_newElement isMild_text, respects_newElement isMild_group⟩

theorem steady_addPair : Steady t t' k i key (addPair pathKey w) := by
  rw [addPair_eq]
  exact steady_newPair.update

theorem newPair_eq_some_iff {origin : Origin} :
    newPair pathKey w origin es = some r ↔
      decide (origin = .dotted) ≠ pathKey.parents.isEmpty ∧ es.find? pathKey.last = none ∧
        r = es.put pathKey.last w := by
  unfold newPair
  split
  · rename_i h
    simp [h]
  · rename_i h
    cases es.find? pathKey.last with
    | none => simp [h, eq_comm]
    | some v => simp

/-- A pair with the one text or the other in a table of a group. -/
theorem newPair_twin {key : String} {origin : Origin} {inner : Entries} (hk : pathKey.last = k)
    (hr : ((newPair pathKey (.text t) origin inner).map fun inner => es.put key (.table origin inner)) = some r) :
    ∃ r', ((newPair pathKey (.text t') origin inner).map fun inner => es.put key (.table origin inner)) = some r' ∧
      Twin (Groups t t' k i) key r r' := by
  obtain ⟨_, hpair, rfl⟩ := Option.map_eq_some_iff.1 hr
  obtain ⟨horigin, hfind, rfl⟩ := newPair_eq_some_iff.1 hpair
  have htext : Twin (Texts t t') k (inner.put pathKey.last (.text t)) (inner.put pathKey.last (.text t')) := by
    rw [hk]
    exact twin_put ⟨rfl, rfl⟩ inner
  have hpair' : newPair pathKey (.text t') origin inner = some (inner.put pathKey.last (.text t')) :=
    newPair_eq_some_iff.2 ⟨horigin, hfind, rfl⟩
  exact ⟨_, Option.map_eq_some_iff.2 ⟨_, hpair', rfl⟩, twin_put (.table origin htext) es⟩

/-- A pair under a dotted key, with the one text or the other. -/
theorem addPair_dotted_twin {key : String} (hr : addPair ⟨[key], k⟩ (.text t) .header es = some r) :
    ∃ r', addPair ⟨[key], k⟩ (.text t') .header es = some r' ∧ Twin (Groups t t' k i) key r r' := by
  rw [addPair_eq] at hr ⊢
  dsimp only at hr ⊢
  cases hfind : es.find? key with
  | none =>
    rw [update_of_missing hfind] at hr ⊢
    exact newPair_twin rfl hr
  | some v =>
    cases v with
    | table origin inner =>
      by_cases horigin : origin = .header
      · rw [update, hfind, horigin] at hr
        cases hr
      · have hmade : ¬ (Origin.dotted = .dotted ∧ origin = .header) := fun h => horigin h.2
        rw [update_of_table hfind hmade] at hr ⊢
        exact newPair_twin rfl hr
    | tables | text | integer | boolean | float | moment | array | inline =>
      rw [update, hfind] at hr
      cases hr

/-- A pair that holds the whole group. -/
theorem addPair_whole_twin {key : String} (hv : Groups t t' k i v v') (hr : addPair ⟨[], key⟩ v .header es = some r) :
    ∃ r', addPair ⟨[], key⟩ v' .header es = some r' ∧ Twin (Groups t t' k i) key r r' := by
  replace hr : newPair ⟨[], key⟩ v .header es = some r := hr
  obtain ⟨horigin, hfind, rfl⟩ := newPair_eq_some_iff.1 hr
  have hr' : newPair ⟨[], key⟩ v' .header es = some (es.put key v') := newPair_eq_some_iff.2 ⟨horigin, hfind, rfl⟩
  exact ⟨_, hr', twin_put hv es⟩

/-- A table on a single line with the one text or the other. -/
theorem ofPairs?_twin {before after : List (KeyPath × Value)}
    (hr : ofPairs? (before ++ (⟨[], k⟩, .text t) :: after) = some r) :
    ∃ r', ofPairs? (before ++ (⟨[], k⟩, .text t') :: after) = some r' ∧ Twin (Texts t t') k r r' := by
  obtain ⟨es₀, hbefore, hr⟩ := Option.bind_eq_some_iff.1 ((List.foldlM_append ..).symm.trans hr)
  obtain ⟨es₁, hpair, hr⟩ := Option.bind_eq_some_iff.1 hr
  replace hpair : newPair ⟨[], k⟩ (.text t) .header es₀ = some es₁ := hpair
  obtain ⟨horigin, hfind, rfl⟩ := newPair_eq_some_iff.1 hpair
  have hpair' : newPair ⟨[], k⟩ (.text t') .header es₀ = some (es₀.put k (.text t')) :=
    newPair_eq_some_iff.2 ⟨horigin, hfind, rfl⟩
  have htwin₀ : Twin (Texts t t') k (es₀.put k (.text t)) (es₀.put k (.text t')) := twin_put ⟨rfl, rfl⟩ es₀
  have hstep (es es' : Entries) (e : KeyPath × Value) (r : Entries) (h : Twin (Texts t t') k es es')
      (hr : addPair e.1 e.2 .header es = some r) :
      ∃ r', addPair e.1 e.2 .header es' = some r' ∧ Twin (Texts t t') k r r' := by
    have hsteady : Steady t t' k 0 k (addPair e.1 e.2) := steady_addPair
    exact hsteady.1 h hr
  obtain ⟨r', hr', htwin⟩ := exists_foldlM_eq_some hstep htwin₀ hr
  exact ⟨r', (List.foldlM_append ..).trans (Option.bind_eq_some_iff.2 ⟨es₀, hbefore,
    Option.bind_eq_some_iff.2 ⟨_, hpair', hr'⟩⟩), htwin⟩

end levels

end Toml.Entries

namespace Toml

open Entries (Texts Groups)

variable {t t' g k : String} {i : Nat}

/-- The two documents are the same but for one text of a group. -/
structure Document.Twin (t t' g k : String) (i : Nat) (d d' : Document) : Prop where
  current : d'.current = d.current
  entries : Entries.Twin (Groups t t' k i) g d.entries d'.entries

theorem Document.Twin.add {d d' r : Document} {statement : Statement} (h : Twin t t' g k i d d')
    (hr : d.add statement = some r) : ∃ r', d'.add statement = some r' ∧ Twin t t' g k i r r' := by
  cases statement with
  | table key =>
    obtain ⟨es, hes, rfl⟩ := Option.map_eq_some_iff.1 hr
    rw [Entries.addTable_eq] at hes
    obtain ⟨es', hes', htwin⟩ := Entries.steady_newTable.update.2 h.entries hes
    exact ⟨_, Option.map_eq_some_iff.2 ⟨es', hes', rfl⟩, rfl, htwin⟩
  | element key =>
    obtain ⟨es, hes, rfl⟩ := Option.map_eq_some_iff.1 hr
    rw [Entries.addElement_eq] at hes
    obtain ⟨es', hes', htwin⟩ := Entries.steady_newElement.update.2 h.entries hes
    exact ⟨_, Option.map_eq_some_iff.2 ⟨es', hes', rfl⟩, rfl, htwin⟩
  | pair key v =>
    obtain ⟨es, hes, rfl⟩ := Option.map_eq_some_iff.1 hr
    obtain ⟨es', hes', htwin⟩ := Entries.steady_addPair.update.2 h.entries hes
    rw [Document.add, h.current]
    exact ⟨_, Option.map_eq_some_iff.2 ⟨es', hes', rfl⟩, rfl, htwin⟩

/-- Where a string stands in the value of a pair. -/
inductive Slot where
  /-- The string is the value. -/
  | whole
  /-- The string is an item of an array. -/
  | item (i : Nat)
  /-- The string stands under a key of a table on a single line. -/
  | entry (key : String)

/-- The two values are the same but for the texts in the slot. -/
inductive Slot.Holds (t t' : String) : Slot → Value → Value → Prop where
  | whole : Holds t t' .whole (.text t) (.text t')
  | item {i : Nat} (before after : List Value) (h : before.length = i) :
      Holds t t' (.item i) (.array (before ++ .text t :: after)) (.array (before ++ .text t' :: after))
  | entry {k : String} {es es' : Entries} (h : Entries.Twin (Texts t t') k es es') :
      Holds t t' (.entry k) (.inline es) (.inline es')

end Toml

namespace Config

open Toml

variable {s : Setting} {t t' : String} {es es' : Entries} {c : Config} {d r : Document} {key : KeyPath} {slot : Slot}
  {v v' : Value}

/-- The place of the setting in an array of the values of its group. -/
def Setting.index (s : Setting) : Nat := s.group.keys.idxOf s.key

theorem Setting.keys_index (s : Setting) : s.group.keys[s.index]? = some s.key := by
  cases s <;> rfl

theorem Group.nodup_keys (g : Group) : g.keys.Nodup := by
  cases g <;> decide

theorem Group.key_injective : Function.Injective Group.key := by
  intro g g' h
  cases g <;> cases g' <;> first | rfl | exact absurd h (by decide)

theorem Setting.eq_of_key {s' : Setting} (hgroup : s'.group = s.group) (hkey : s'.key = s.key) : s' = s := by
  cases s <;> cases s' <;> first | rfl | exact absurd hgroup (by decide) | exact absurd hkey (by decide)

/-- The slot of a pair under the key is where the document so far takes the setting: under a header of its group,
under a dotted key, or in a table on a single line or in an array in the place of its group. -/
inductive Setting.IsAt (s : Setting) (d : Document) : KeyPath → Slot → Prop where
  | header {origin : Origin} {inner : Entries} (hcurrent : d.current = [s.group.key])
      (h : d.entries.find? s.group.key = some (.table origin inner)) : IsAt s d ⟨[], s.key⟩ .whole
  | dotted (hcurrent : d.current = []) : IsAt s d ⟨[s.group.key], s.key⟩ .whole
  | inline (hcurrent : d.current = []) : IsAt s d ⟨[], s.group.key⟩ (.entry s.key)
  | item (hcurrent : d.current = []) : IsAt s d ⟨[], s.group.key⟩ (.item s.index)

/-- A pair with the one text or the other at the place of a setting. -/
theorem Setting.IsAt.add (h : s.IsAt d key slot) (hv : slot.Holds t t' v v') (hr : d.add (.pair key v) = some r) :
    ∃ r', d.add (.pair key v') = some r' ∧ Document.Twin t t' s.group.key s.key s.index r r' := by
  obtain ⟨es, hes, rfl⟩ := Option.map_eq_some_iff.1 hr
  suffices ∃ es', d.entries.update .implied (Entries.addPair key v') d.current .header = some es' ∧
      Entries.Twin (Entries.Groups t t' s.key s.index) s.group.key es es' by
    obtain ⟨es', hes', htwin⟩ := this
    exact ⟨_, Option.map_eq_some_iff.2 ⟨es', hes', rfl⟩, rfl, htwin⟩
  clear hr
  cases h with
  | @header origin inner hcurrent hfind =>
    cases hv
    have hpath (w : Value) : d.entries.update .implied (Entries.addPair ⟨[], s.key⟩ w) d.current .header =
        (Entries.newPair ⟨[], s.key⟩ w origin inner).map fun inner =>
          d.entries.put s.group.key (.table origin inner) := by
      rw [hcurrent]
      exact Entries.update_of_table hfind nofun
    rw [hpath] at hes ⊢
    exact Entries.newPair_twin rfl hes
  | dotted hcurrent =>
    cases hv
    rw [hcurrent] at hes ⊢
    exact Entries.addPair_dotted_twin hes
  | inline hcurrent =>
    cases hv with
    | entry htwin =>
      rw [hcurrent] at hes ⊢
      exact Entries.addPair_whole_twin (.inline htwin) hes
  | item hcurrent =>
    cases hv with
    | item before after hlength =>
      rw [hcurrent] at hes ⊢
      exact Entries.addPair_whole_twin (.array before after hlength) hes

/-- Documents of the same statements but for the text at the place of a setting. -/
theorem Setting.IsAt.ofStatements? {before after : List Statement} (h : s.IsAt d key slot)
    (hbefore : Document.ofStatements? before = some d) (hv : slot.Holds t t' v v')
    (hr : Document.ofStatements? (before ++ .pair key v :: after) = some r) :
    ∃ r', Document.ofStatements? (before ++ .pair key v' :: after) = some r' ∧
      Document.Twin t t' s.group.key s.key s.index r r' := by
  have hsplit (w : Value) : Document.ofStatements? (before ++ .pair key w :: after) =
      (d.add (.pair key w)).bind fun d => after.foldlM Document.add d := by
    show (before ++ .pair key w :: after).foldlM Document.add Document.empty = _
    rw [List.foldlM_append]
    show (Document.ofStatements? before).bind _ = _
    rw [hbefore]
    rfl
  rw [hsplit] at hr ⊢
  obtain ⟨d₁, hd₁, hr⟩ := Option.bind_eq_some_iff.1 hr
  obtain ⟨d₁', hd₁', htwin⟩ := h.add hv hd₁
  obtain ⟨r', hr', htwin'⟩ := exists_foldlM_eq_some (fun _ _ _ _ h h₁ => h.add h₁) htwin hr
  exact ⟨r', Option.bind_eq_some_iff.2 ⟨d₁', hd₁', hr'⟩, htwin'⟩

theorem zip_twin {keys : List String} {k : String} {before after : List Value} (hkeys : keys.Nodup)
    (hk : keys[before.length]? = some k) :
    Entries.Twin (Entries.Texts t t') k (keys.zip (before ++ .text t :: after))
      (keys.zip (before ++ .text t' :: after)) := by
  induction before generalizing keys with
  | nil =>
    cases keys with
    | nil => cases hk
    | cons k' keys =>
      cases hk
      exact .here _ ⟨rfl, rfl⟩
  | cons v before ih =>
    cases keys with
    | nil => cases hk
    | cons k' keys =>
      obtain ⟨hk', hkeys⟩ := List.nodup_cons.1 hkeys
      refine .behind (fun heq => hk' ?_) (ih hkeys hk)
      rw [show k' = k from heq]
      exact List.mem_of_getElem? hk

/-- The settings of a group that differ in one text. -/
theorem settingsOf?_twin (h : Entries.Groups t t' s.key s.index v v') :
    ∃ inner inner', settingsOf? s.group.keys v = some inner ∧ settingsOf? s.group.keys v' = some inner' ∧
      Entries.Twin (Entries.Texts t t') s.key inner inner' := by
  cases h with
  | table origin h => exact ⟨_, _, rfl, rfl, h⟩
  | inline h => exact ⟨_, _, rfl, rfl, h⟩
  | array before after h =>
    exact ⟨_, _, rfl, rfl, zip_twin s.group.nodup_keys (by rw [h]; exact s.keys_index)⟩

/-- Documents that differ in the text of one setting make configurations that differ in that setting. -/
theorem ofEntries?_twin (h : Entries.Twin (Entries.Groups t t' s.key s.index) s.group.key es es')
    (hc : ofEntries? es = some c) {x : s.kind.Carrier} (hx : s.kind.ofValue? (.text t') = some x) :
    ofEntries? es' = some (s.set x c) := by
  obtain ⟨⟨htoken, hreadable⟩, hsettings⟩ := ofEntries?_eq_some_iff.1 hc
  obtain ⟨v, v', hv, hv', hvv'⟩ := h.find?_self
  obtain ⟨inner, inner', hinner, hinner', htwin⟩ := settingsOf?_twin hvv'
  have hentries : s.group.entries? es = some inner := by
    rw [Group.entries?, hv]
    exact hinner
  have hentries' : s.group.entries? es' = some inner' := by
    rw [Group.entries?, hv']
    exact hinner'
  have hother {g : Group} (hg : g ≠ s.group) : es'.find? g.key = es.find? g.key :=
    h.find?_of_ne (Group.key_injective.ne hg)
  refine ofEntries?_eq_some_iff.2 ⟨⟨?_, fun g => ?_⟩, fun s' => ?_⟩
  · by_cases hg : Group.telegram = s.group
    · intro hempty
      have hkey : es'.find? Group.telegram.key = some (.array []) := hempty
      rw [hg, hv', Option.some.injEq] at hkey
      rw [hkey, settingsOf?, List.zip_nil_right, Option.some.injEq] at hinner'
      rw [← hinner'] at htwin
      cases htwin
    · have hsame : es'.find? "telegram" = es.find? "telegram" := hother hg
      rwa [hsame]
  · by_cases hg : g = s.group
    · rw [hg]
      exact .inr (by rw [hentries']; rfl)
    · have hsame := hreadable g
      unfold Group.IsReadable Group.entries? at hsame ⊢
      rwa [hother hg]
  · by_cases hs : s' = s
    · subst hs
      obtain ⟨_, _, -, htext, -, rfl⟩ := htwin.find?_self
      have hvalue : s'.value? es' = some (.text t') := by rw [Setting.value?, hentries', Option.bind_some, htext]
      rw [Setting.ofEntries?, hvalue, Setting.get_set]
      exact hx
    · have hvalue : s'.value? es' = s'.value? es := by
        unfold Setting.value?
        by_cases hgroup : s'.group = s.group
        · rw [hgroup, hentries, hentries']
          exact htwin.find?_of_ne fun hkey => hs (Setting.eq_of_key hgroup hkey)
        · unfold Group.entries?
          rw [hother hgroup]
      rw [Setting.get_set_of_ne hs, ← hsettings s']
      unfold Setting.ofEntries?
      rw [hvalue]

end Config

end VaultChat
