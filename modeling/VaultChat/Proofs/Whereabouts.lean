import VaultChat.Proofs.Nesting
import VaultChat.Proofs.Twins

/-!
# Where a string stands in a document

What a document has in front of a string is read without regard to the string.  So the document can be read with
another string in its place, and then differs in one text only (`Leads.read?`).
-/

namespace VaultChat.Toml

open Text (Reader)
open Text.Reader

variable {cs mid rest spot x y z z' m p : List Char} {t t' : String} {v w : Value} {slot : Slot} {key : KeyPath}

/-! ### Spelling -/

/-- What the text stands for between quotation marks, a character or an escape at a time. -/
def Spells (cs x : List Char) : Prop := Through (one isPlain <|> escape) cs x []

theorem spells_self (h : ∀ c ∈ cs, isPlain c = true) : Spells cs cs := by
  induction cs with
  | nil => exact .here
  | cons c cs ih =>
    have hone : one isPlain (c :: cs) = some (c, cs) := one_eq_some_iff.2 ⟨rfl, h c List.mem_cons_self⟩
    exact .next (orElse_of_eq_some hone) (ih fun d hd => h d (List.mem_cons_of_mem c hd))

/-- A text spells one thing at most. -/
theorem Spells.unique (h : Spells cs x) (h' : Spells cs y) : x = y := by
  have hend {l : List Char} (h : Through (one isPlain <|> escape) [] l []) : l = [] := by
    cases h with
    | here => rfl
    | next h => cases h
  rcases Through.split h h' with ⟨l, rfl, hl⟩ | ⟨l, rfl, hl⟩
  · rw [hend hl, List.append_nil]
  · rw [hend hl, List.append_nil]

/-- What the reader takes, it takes as well when the text goes on. -/
private def Extends {α : Type} (r : Reader Char α) : Prop :=
  ∀ ⦃cs a rest⦄, r cs = some (a, rest) → ∀ z, r (cs ++ z) = some (a, rest ++ z)

private theorem Extends.bind {α β : Type} {r : Reader Char α} {f : α → Reader Char β} (hr : Extends r)
    (hf : ∀ a, Extends (f a)) : Extends (r >>= f) := by
  intro cs b rest h z
  obtain ⟨a, mid, hmid, hrest⟩ := bind_eq_some_iff.1 h
  exact bind_eq_some_iff.2 ⟨a, mid ++ z, hr hmid z, hf a hrest z⟩

private theorem extends_one (p : Char → Bool) : Extends (one p) := by
  intro cs c rest h z
  obtain ⟨rfl, hc⟩ := one_eq_some_iff.1 h
  exact one_eq_some_iff.2 ⟨rfl, hc⟩

private theorem extends_pure {α : Type} (a : α) : Extends (pure a : Reader Char α) := by
  rintro cs _ _ ⟨⟩ z
  rfl

private theorem extends_scalar (n : Nat) : Extends (scalar n) := by
  intro cs c rest h z
  unfold scalar at h ⊢
  dsimp only at h ⊢
  split at h
  · rename_i hdigits
    cases h
    have hlen : n ≤ cs.length := by
      have hle := (List.takeWhile_prefix (l := cs.take n) isHexDigit).length_le
      rw [hdigits.1, List.length_take] at hle
      omega
    rw [List.take_append_of_le_length hlen, List.drop_append_of_le_length hlen]
    exact if_pos hdigits
  · cases h

private theorem extends_escape : Extends escape := by
  have hopen : Extends (exactly ['\\']) := by
    intro cs _ rest h z
    rw [exactly_eq_some_iff] at h ⊢
    rw [h, List.append_assoc]
  have hescaped (c : Char) : Extends (escaped c) := by
    unfold escaped
    split
    case h_8 | h_9 => exact extends_scalar _
    case h_10 => exact nofun
    all_goals exact extends_pure _
  exact hopen.bind fun _ => (extends_one _).bind hescaped

/-- Nothing that is spelt starts with a quotation mark. -/
private theorem char_quote (cs : List Char) : (one isPlain <|> escape) ('"' :: cs) = none := rfl

private theorem Spells.append (h : Spells cs x) (z : List Char) :
    Through (one isPlain <|> escape) (cs ++ '"' :: z) x ('"' :: z) := by
  have hchar : Extends (one isPlain <|> escape) := by
    intro cs c rest h z
    rcases orElse_eq_some_iff.1 h with h | ⟨hnone, h⟩
    · exact orElse_of_eq_some (extends_one _ h z)
    · refine orElse_eq_some_iff.2 (.inr ⟨?_, extends_escape h z⟩)
      cases cs with
      | nil => cases h
      | cons d cs =>
        refine if_neg fun hd => ?_
        have hone : one isPlain (d :: cs) = some (d, cs) := one_eq_some_iff.2 ⟨rfl, hd⟩
        rw [hone] at hnone
        cases hnone
  have hthrough {cs rest : List Char} {l : List Char} (h : Through (one isPlain <|> escape) cs l rest) :
      Through (one isPlain <|> escape) (cs ++ '"' :: z) l (rest ++ '"' :: z) := by
    induction h with
    | here => exact .here
    | next h _ ih => exact .next (hchar h _) ih
  exact hthrough h

theorem basicString_of_spells (h : Spells cs x) (rest : List Char) :
    basicString ('"' :: (cs ++ '"' :: rest)) = some (x, rest) := by
  have hchars : many (one isPlain <|> escape) (cs ++ '"' :: rest) = some (x, '"' :: rest) :=
    (many_eq_some_iff ((consumes_one _).orElse consumes_escape)).2 ⟨h.append rest, char_quote rest⟩
  exact seqLeft_eq_some_iff.2 ⟨'"' :: rest, (), seqRight_eq_some_iff.2 ⟨(), _, exactly_eq_some_iff.2 rfl, hchars⟩,
    exactly_eq_some_iff.2 rfl⟩

/-- A third quotation mark would open a string of several lines. -/
theorem value_of_spells (h : Spells cs x) (hrest : rest.head? ≠ some '"') (depth : Nat) :
    value depth ('"' :: (cs ++ '"' :: rest)) = some (.text (String.ofList x), rest) := by
  have hthree : ('"' :: (cs ++ '"' :: rest)).take 3 ≠ ['"', '"', '"'] := by
    intro htake
    cases h with
    | here =>
      cases rest with
      | nil => cases htake
      | cons c rest =>
        obtain rfl : c = '"' := (List.cons.inj (List.cons.inj (List.cons.inj htake).2).2).1
        exact hrest rfl
    | @next _ _ _ c l h =>
      cases cs with
      | nil => cases h
      | cons d cs =>
        obtain rfl : d = '"' := (List.cons.inj (List.cons.inj htake).2).1
        rw [char_quote] at h
        cases h
  have hstring : string ('"' :: (cs ++ '"' :: rest)) = some (String.ofList x, rest) := by
    rw [string_eq, form, if_neg hthree]
    exact map_eq_some_iff.2 ⟨x, basicString_of_spells h rest, rfl⟩
  have hplain : plainValue ('"' :: (cs ++ '"' :: rest)) = some (.text (String.ofList x), rest) :=
    orElse_of_eq_some (map_eq_some_iff.2 ⟨_, hstring, rfl⟩)
  cases depth with
  | zero => exact hplain
  | succ depth =>
    have harray : (Value.array <$> array (value depth)) ('"' :: (cs ++ '"' :: rest)) = none :=
      map_of_eq_none (array_of_ne (by decide) _)
    have htable : (Value.inline <$> inlineTable (value depth)) ('"' :: (cs ++ '"' :: rest)) = none :=
      map_of_eq_none (inlineTable_of_ne (by decide) _)
    rw [value, orElse_of_eq_none harray, orElse_of_eq_none htable, hplain]

/-! ### Inside a value -/

/-- On the way through a value the string in the slot starts at the spot. -/
inductive Reaches (item : Reader Char Value) : List Char → Slot → List Char → Prop where
  | whole {cs : List Char} : Reaches item cs .whole cs
  | item {cs mid spot : List Char} (l : List Value) (h : Through (entry item <* exactly [',']) cs l mid)
      (hspot : spread mid = some ((), spot)) : Reaches item ('[' :: cs) (.item l.length) spot
  | entry {cs mid mid' spot : List Char} {k : String} (l : List (KeyPath × Value))
      (h : Through (pair item <* gap <* exactly [',']) cs l mid) (hkey : keyPath mid = some (⟨[], k⟩, '=' :: mid'))
      (hspot : gap mid' = some ((), spot)) : Reaches item ('\x7b' :: cs) (.entry k) spot

/-- The two texts stand for strings that go on in the same way. -/
structure Alike (t t' : String) (spot spot' rest : List Char) : Prop where
  left : ∀ depth, value depth spot = some (.text t, rest)
  right : ∀ depth, value depth spot' = some (.text t', rest)

theorem entry_at {item : Reader Char Value} (hspot : spread mid = some ((), spot))
    (hitem : item spot = some (w, rest)) :
    entry item mid = some (v, m) ↔ v = w ∧ spread rest = some ((), m) := by
  rw [entry_eq_some_iff]
  constructor
  · rintro ⟨_, _, hbefore, h, hafter⟩
    rw [hspot] at hbefore
    cases hbefore
    rw [hitem] at h
    cases h
    exact ⟨rfl, hafter⟩
  · rintro ⟨rfl, hafter⟩
    exact ⟨_, _, hspot, hitem, hafter⟩

theorem pair_at {item : Reader Char Value} {kv : KeyPath × Value} (hkey : keyPath cs = some (key, '=' :: mid))
    (hspot : gap mid = some ((), spot)) : pair item cs = some (kv, m) ↔ kv.1 = key ∧ item spot = some (kv.2, m) := by
  have hmark (c : List Char) : exactly ['='] c = some ((), mid) ↔ c = '=' :: mid := exactly_eq_some_iff
  constructor
  · intro h
    obtain ⟨_, _, h₁, h⟩ := bind_eq_some_iff.1 h
    rw [hkey] at h₁
    cases h₁
    obtain ⟨_, _, h₂, h⟩ := bind_eq_some_iff.1 h
    rw [(hmark _).2 rfl] at h₂
    cases h₂
    obtain ⟨_, _, h₃, h⟩ := bind_eq_some_iff.1 h
    rw [hspot] at h₃
    cases h₃
    obtain ⟨_, _, h₄, h⟩ := bind_eq_some_iff.1 h
    cases h
    exact ⟨rfl, h₄⟩
  · rintro ⟨rfl, h⟩
    exact bind_eq_some_iff.2 ⟨_, _, hkey, bind_eq_some_iff.2 ⟨(), _, (hmark _).2 rfl,
      bind_eq_some_iff.2 ⟨(), _, hspot, bind_eq_some_iff.2 ⟨_, _, h, rfl⟩⟩⟩⟩

theorem value_bracket (depth : Nat) :
    value (depth + 1) ('[' :: cs) = some (v, m) ↔
      ∃ l, array (value depth) ('[' :: cs) = some (l, m) ∧ v = .array l := by
  constructor
  · intro h
    rcases orElse_eq_some_iff.1 h with h | ⟨-, h⟩
    · obtain ⟨l, hl, rfl⟩ := map_eq_some_iff.1 h
      exact ⟨l, hl, rfl⟩
    · have hnone : (Value.inline <$> inlineTable (value depth) <|> plainValue) ('[' :: cs) = none :=
        orElse_eq_none_iff.2 ⟨map_of_eq_none (inlineTable_of_ne (by decide) cs),
          plainValue_of_mark (by decide) (by decide) (by decide) cs⟩
      rw [hnone] at h
      cases h
  · rintro ⟨l, hl, rfl⟩
    exact orElse_of_eq_some (map_eq_some_iff.2 ⟨l, hl, rfl⟩)

theorem value_brace (depth : Nat) :
    value (depth + 1) ('\x7b' :: cs) = some (v, m) ↔
      ∃ es, inlineTable (value depth) ('\x7b' :: cs) = some (es, m) ∧ v = .inline es := by
  have harray : (Value.array <$> array (value depth)) ('\x7b' :: cs) = none :=
    map_of_eq_none (array_of_ne (by decide) cs)
  rw [value, orElse_of_eq_none harray]
  constructor
  · intro h
    rcases orElse_eq_some_iff.1 h with h | ⟨-, h⟩
    · obtain ⟨es, hes, rfl⟩ := map_eq_some_iff.1 h
      exact ⟨es, hes, rfl⟩
    · rw [plainValue_of_mark (by decide) (by decide) (by decide) cs] at h
      cases h
  · rintro ⟨es, hes, rfl⟩
    exact orElse_of_eq_some (map_eq_some_iff.2 ⟨es, hes, rfl⟩)

/-- An array with another string as the item in front of which `before` stands. -/
theorem array_at {item : Reader Char Value} (hitem : IsItem item) {before l : List Value} {cs' mid' spot' : List Char}
    (hthrough : Through (entry item <* exactly [',']) cs before mid)
    (hthrough' : Through (entry item <* exactly [',']) cs' before mid')
    (hspot : spread mid = some ((), spot)) (hspot' : spread mid' = some ((), spot'))
    (hv : item spot = some (v, rest)) (hw : item spot' = some (w, rest)) (h : array item ('[' :: cs) = some (l, m)) :
    ∃ after, l = before ++ v :: after ∧ array item ('[' :: cs') = some (before ++ w :: after, m) := by
  obtain ⟨_, l₁, l₂, mid₁, heq, rfl, h₁, hend⟩ := hitem.array_eq_some_iff.1 h
  cases heq
  have hE {m : List Char} {l : List Value} {rest : List Char} (hend : IsItem.ArrayEnd item m l rest) :
      (entry item <* exactly [',']) m = none := by
    cases hend with
    | bare hclosed => exact bind_of_eq_none (hitem.entry_of_closed hclosed)
    | entry u hlast =>
      refine Option.eq_none_iff_forall_ne_some.2 fun x hx => ?_
      rw [seqLeft_exactly_eq_some_iff] at hlast hx
      rw [hlast] at hx
      cases hx
  have hnext {a : Value} {m : List Char} (h : (entry item <* exactly [',']) mid = some (a, m)) :
      ∃ a', (a = v ∧ a' = w) ∧ (entry item <* exactly [',']) mid' = some (a', m) := by
    obtain ⟨rfl, hrest⟩ := (entry_at hspot hv).1 (seqLeft_exactly_eq_some_iff.1 h)
    exact ⟨w, ⟨rfl, rfl⟩, seqLeft_exactly_eq_some_iff.2 ((entry_at hspot' hw).2 ⟨rfl, hrest⟩)⟩
  have hlast {l : List Value} {m : List Char} (h : IsItem.ArrayEnd item mid l m) :
      ∃ a a', l = [a] ∧ (a = v ∧ a' = w) ∧ IsItem.ArrayEnd item mid' [a'] m := by
    cases h with
    | bare hclosed =>
      -- a bracket is no value
      rw [closed_eq_some_iff, hspot] at hclosed
      cases hclosed
      rw [hitem.mark _ (by decide)] at hv
      cases hv
    | entry u h =>
      obtain ⟨rfl, hrest⟩ := (entry_at hspot hv).1 (seqLeft_exactly_eq_some_iff.1 h)
      exact ⟨u, w, rfl, ⟨rfl, rfl⟩, .entry w (seqLeft_exactly_eq_some_iff.2 ((entry_at hspot' hw).2 ⟨rfl, hrest⟩))⟩
  obtain ⟨_, _, after, l₁', l₂', m', hl, ⟨rfl, rfl⟩, hl', h₁', hend'⟩ :=
    Through.graft (r := entry item <* exactly [',']) (E := IsItem.ArrayEnd item) hE hnext hlast hthrough hthrough'
      h₁ hend
  exact ⟨after, hl, hitem.array_eq_some_iff.2 ⟨cs', l₁', l₂', m', rfl, hl'.symm, h₁', hend'⟩⟩

/-- A pair with another value, and what follows it. -/
private theorem pair_gap_at {item : Reader Char Value} {cs' spot' s s' : List Char} {c : Char} {kv : KeyPath × Value}
    (hkey : keyPath cs = some (key, '=' :: s)) (hkey' : keyPath cs' = some (key, '=' :: s'))
    (hspot : gap s = some ((), spot)) (hspot' : gap s' = some ((), spot')) (hv : item spot = some (v, rest))
    (hw : item spot' = some (w, rest)) (h : (pair item <* gap <* exactly [c]) cs = some (kv, m)) :
    kv = (key, v) ∧ (pair item <* gap <* exactly [c]) cs' = some ((key, w), m) := by
  obtain ⟨m₁, _, h, hc⟩ := seqLeft_eq_some_iff.1 h
  obtain ⟨m₂, _, h, hg⟩ := seqLeft_eq_some_iff.1 h
  obtain ⟨hk, hitem⟩ := (pair_at hkey hspot).1 h
  rw [hv] at hitem
  cases hitem
  have hpair' : pair item cs' = some ((key, w), rest) := (pair_at hkey' hspot').2 ⟨rfl, hw⟩
  exact ⟨Prod.ext hk rfl, seqLeft_eq_some_iff.2 ⟨m₁, _, seqLeft_eq_some_iff.2 ⟨rest, _, hpair', hg⟩, hc⟩⟩

/-- The pairs of a table on a single line with another string under the key behind `before`. -/
theorem inlinePairs_at {item : Reader Char Value} {before l : List (KeyPath × Value)}
    {cs' mid' spot' s s' : List Char} (hthrough : Through (pair item <* gap <* exactly [',']) cs before mid)
    (hthrough' : Through (pair item <* gap <* exactly [',']) cs' before mid')
    (hkey : keyPath mid = some (key, '=' :: s)) (hkey' : keyPath mid' = some (key, '=' :: s'))
    (hspot : gap s = some ((), spot)) (hspot' : gap s' = some ((), spot'))
    (hv : item spot = some (v, rest)) (hw : item spot' = some (w, rest)) (h : IsItem.InlinePairs item cs l m) :
    ∃ after, l = before ++ (key, v) :: after ∧ IsItem.InlinePairs item cs' (before ++ (key, w) :: after) m := by
  have hpair {kv : KeyPath × Value} {c : Char} {m : List Char}
      (h : (pair item <* gap <* exactly [c]) mid = some (kv, m)) :
      kv = (key, v) ∧ (pair item <* gap <* exactly [c]) mid' = some ((key, w), m) :=
    pair_gap_at hkey hkey' hspot hspot' hv hw h
  cases h with
  | none hclose =>
    -- where the table is closed there is no pair, neither before nor at the place
    rw [seqRight_exactly_eq_some_iff] at hclose
    cases hthrough with
    | here =>
      rw [keyPath_of_gap hclose rfl (by decide) (by decide)] at hkey
      cases hkey
    | next h =>
      have hnone : (pair item <* gap <* exactly [',']) cs = none := bind_of_eq_none (IsItem.pair_of_braced hclose)
      rw [hnone] at h
      cases h
  | some l kv h₁ hend =>
    let E (m : List Char) (l : List (KeyPath × Value)) (rest : List Char) : Prop :=
      ∃ kv, l = [kv] ∧ (pair item <* gap <* exactly ['\x7d']) m = some (kv, rest)
    have hE {m : List Char} {l : List (KeyPath × Value)} {rest : List Char} (hend : E m l rest) :
        (pair item <* gap <* exactly [',']) m = none := by
      obtain ⟨kv, -, hend⟩ := hend
      refine Option.eq_none_iff_forall_ne_some.2 fun x hx => ?_
      rw [seqLeft_exactly_eq_some_iff] at hend hx
      rw [hend] at hx
      cases hx
    have hnext {a : KeyPath × Value} {m : List Char} (h : (pair item <* gap <* exactly [',']) mid = some (a, m)) :
        ∃ a', (a = (key, v) ∧ a' = (key, w)) ∧ (pair item <* gap <* exactly [',']) mid' = some (a', m) := by
      obtain ⟨ha, h'⟩ := hpair h
      exact ⟨_, ⟨ha, rfl⟩, h'⟩
    have hlast {l : List (KeyPath × Value)} {m : List Char} (h : E mid l m) :
        ∃ a a', l = [a] ∧ (a = (key, v) ∧ a' = (key, w)) ∧ E mid' [a'] m := by
      obtain ⟨kv, hl, h⟩ := h
      obtain ⟨hkv, h'⟩ := hpair h
      exact ⟨kv, _, hl, ⟨hkv, rfl⟩, _, rfl, h'⟩
    obtain ⟨_, _, after, l₁', _, m', hl, ⟨rfl, rfl⟩, hl', h₁', kv', rfl, hend'⟩ :=
      Through.graft (r := pair item <* gap <* exactly [',']) (E := E) hE hnext hlast hthrough hthrough' h₁
        ⟨kv, rfl, hend⟩
    refine ⟨after, hl, ?_⟩
    rw [← hl']
    exact .some l₁' kv' h₁' hend'

/-- Behind a key the way to a place in front of a quotation mark does not depend on what is quoted. -/
theorem exists_way_of_key {q : List Char} (hkey : keyPath cs = some (key, '=' :: mid))
    (hgap : gap mid = some ((), q ++ '"' :: z)) :
    ∃ y x, cs = y ++ '"' :: z ∧ ∀ z', keyPath (y ++ '"' :: z') = some (key, '=' :: (x ++ '"' :: z')) ∧
      gap (x ++ '"' :: z') = some ((), q ++ '"' :: z') := by
  have hgaps : Independent gap := stopsAtMarks_gap.independent
  obtain ⟨x, rfl⟩ := exists_eq_append (hgaps.shrinks hgap)
  obtain ⟨y, rfl⟩ := @exists_eq_append _ _ '"' ('=' :: x) z (independent_keyPath.shrinks hkey)
  refine ⟨y, x, rfl, fun z' => ⟨?_, hgaps.transfer hgap (fun _ _ => trivial) z'⟩⟩
  exact @independent_keyPath.transfer y ('=' :: x) z _ hkey (by simp) z'

/-- An array with another string as one of its items. -/
private theorem value_of_item {item : Reader Char Value} (hitem : IsItem item) {l l' : List Value}
    (hthrough : Through (entry item <* exactly [',']) cs l mid) (hspread : spread mid = some ((), '"' :: z))
    (hv : item ('"' :: z) = some (v, rest)) (hw : item ('"' :: z') = some (w, rest))
    (h : array item ('[' :: cs) = some (l', m)) :
    ∃ u after, cs = u ++ '"' :: z ∧ l' = l ++ v :: after ∧
      array item ('[' :: (u ++ '"' :: z')) = some (l ++ w :: after, m) := by
  have hentry : Independent (entry item <* exactly [',']) := hitem.independent_entry_exactly (by decide)
  obtain ⟨s, rfl⟩ := shrinks_spread hspread
  obtain ⟨u, rfl⟩ := exists_eq_append (hthrough.suffix hentry.shrinks)
  have hspread' : spread (s ++ '"' :: z') = some ((), '"' :: z') :=
    @independent_spread.transfer s [] z () hspread (by simp) z'
  obtain ⟨after, rfl, h'⟩ := array_at hitem hthrough (hentry.through hthrough z') hspread hspread' hv hw h
  exact ⟨u, after, rfl, rfl, h'⟩

/-- A table on a single line with another string under one of its keys. -/
private theorem value_of_entry {item : Reader Char Value} (hitem : IsItem item) {l : List (KeyPath × Value)}
    {k : String} {es : Entries} (hthrough : Through (pair item <* gap <* exactly [',']) cs l mid)
    (hkey : keyPath mid = some (⟨[], k⟩, '=' :: x)) (hgap : gap x = some ((), '"' :: z))
    (hv : item ('"' :: z) = some (.text t, rest)) (hw : item ('"' :: z') = some (.text t', rest))
    (h : inlineTable item ('\x7b' :: cs) = some (es, m)) :
    ∃ u es', cs = u ++ '"' :: z ∧ Entries.Twin (Entries.Texts t t') k es es' ∧
      inlineTable item ('\x7b' :: (u ++ '"' :: z')) = some (es', m) := by
  have hpair : Independent (pair item <* gap <* exactly [',']) :=
    (hitem.independent_pair.seqLeft stopsAtMarks_gap.independent).seqLeft (.exactly _)
  obtain ⟨y, x, rfl, hway⟩ := exists_way_of_key (q := []) hkey hgap
  obtain ⟨u, rfl⟩ := exists_eq_append (hthrough.suffix hpair.shrinks)
  obtain ⟨_, l', heq, hpairs, hl'⟩ := hitem.inlineTable_eq_some_iff.1 h
  cases heq
  obtain ⟨after, rfl, hpairs'⟩ := inlinePairs_at hthrough (hpair.through hthrough z') (hway z).1 (hway z').1
    (hway z).2 (hway z').2 hv hw hpairs
  obtain ⟨es', hes', htwin⟩ := Entries.ofPairs?_twin hl'
  exact ⟨u, es', rfl, htwin, hitem.inlineTable_eq_some_iff.2 ⟨_, _, rfl, hpairs', hes'⟩⟩

/-- With another string in the slot the value is the same but for the string. -/
theorem value_of_reaches {depth : Nat} (h : Reaches (value depth) (p ++ '"' :: z) slot ('"' :: z))
    (halike : Alike t t' ('"' :: z) ('"' :: z') rest) (hv : value (depth + 1) (p ++ '"' :: z) = some (v, m)) :
    ∃ v', value (depth + 1) (p ++ '"' :: z') = some (v', m) ∧ slot.Holds t t' v v' := by
  have hitem := isItem_value depth
  generalize hcs : p ++ '"' :: z = cs at h hv
  generalize hspot : '"' :: z = spot at h
  cases h with
  | whole =>
    obtain rfl : p = [] := List.append_cancel_right (hcs.trans hspot.symm)
    rw [← hspot, halike.left] at hv
    cases hv
    exact ⟨_, halike.right _, .whole⟩
  | item l hthrough hspread =>
    subst hspot
    obtain ⟨l', hl', rfl⟩ := (value_bracket depth).1 hv
    obtain ⟨u, after, rfl, rfl, h'⟩ :=
      value_of_item hitem hthrough hspread (halike.left depth) (halike.right depth) hl'
    obtain rfl : p = '[' :: u := List.append_cancel_right hcs
    exact ⟨_, (value_bracket depth).2 ⟨_, h', rfl⟩, .item l after rfl⟩
  | entry l hthrough hkey hgap =>
    subst hspot
    obtain ⟨es, hes, rfl⟩ := (value_brace depth).1 hv
    obtain ⟨u, es', rfl, htwin, h'⟩ :=
      value_of_entry hitem hthrough hkey hgap (halike.left depth) (halike.right depth) hes
    obtain rfl : p = '\x7b' :: u := List.append_cancel_right hcs
    exact ⟨_, (value_brace depth).2 ⟨es', h', rfl⟩, .entry htwin⟩

theorem Reaches.suffix {item : Reader Char Value} (hitem : IsItem item) (h : Reaches item cs slot spot) :
    spot <:+ cs := by
  cases h with
  | whole => exact List.suffix_refl _
  | item l h hspot =>
    have hentry : Independent (Toml.entry item <* exactly [',']) := hitem.independent_entry_exactly (by decide)
    exact ((shrinks_spread hspot).trans (h.suffix hentry.shrinks)).trans (List.suffix_cons _ _)
  | entry l h hkey hspot =>
    have hpair : Independent (pair item <* gap <* exactly [',']) :=
      (hitem.independent_pair.seqLeft stopsAtMarks_gap.independent).seqLeft (.exactly _)
    have hvalue := (stopsAtMarks_gap.shrinks hspot).trans (List.suffix_cons '=' _)
    exact ((hvalue.trans (independent_keyPath.shrinks hkey)).trans (h.suffix hpair.shrinks)).trans
      (List.suffix_cons _ _)

/-! ### Through a document -/

/-- What may stand in front of the first line. -/
def lead : Reader Char Unit := discard (perhaps (exactly ['\uFEFF'])) *> gap

theorem stopsAtMarks_lead : StopsAtMarks lead :=
  (Halts.exactly (marks_notMem (by decide))).perhaps.discard.seqRight stopsAtMarks_gap

/-- On the way through a document, behind some lines, the pair with the key has the string at the spot in its slot. -/
inductive Leads : List Char → List (Option Statement) → KeyPath → Slot → List Char → Prop where
  | intro {cs start mid after spot v : List Char} {before : List (Option Statement)} {key : KeyPath} {slot : Slot}
      (hlead : lead cs = some ((), start)) (hlines : Through line start before mid)
      (hkey : keyPath mid = some (key, '=' :: after)) (hgap : gap after = some ((), v))
      (h : Reaches (value (maxDepth - 1)) v slot spot) : Leads cs before key slot spot

/-- A document is read line by line. -/
theorem Document.read?_eq_some_iff {es : Entries} :
    Document.read? cs = some es ↔ ∃ start l d, lead cs = some ((), start) ∧ Through line start l [] ∧
      Document.ofStatements? (l.filterMap id) = some d ∧ d.entries = es := by
  have hstatements (l : List Statement) : statements cs = some (l, []) ↔
      ∃ start lines, lead cs = some ((), start) ∧ Through line start lines [] ∧ l = lines.filterMap id := by
    have hmany (start : List Char) (lines : List (Option Statement)) :
        many line start = some (lines, []) ↔ Through line start lines [] := by
      rw [many_eq_some_iff consumes_line, consumes_line.nil, and_iff_left rfl]
    constructor
    · intro h
      obtain ⟨_, mid, hmark, h⟩ := bind_eq_some_iff.1 h
      obtain ⟨_, start, hgap, h⟩ := bind_eq_some_iff.1 h
      obtain ⟨lines, _, hlines, h⟩ := bind_eq_some_iff.1 h
      cases h
      exact ⟨start, lines, seqRight_eq_some_iff.2 ⟨_, mid, hmark, hgap⟩, (hmany start lines).1 hlines, rfl⟩
    · rintro ⟨start, lines, hlead, hlines, rfl⟩
      obtain ⟨_, mid, hmark, hgap⟩ := seqRight_eq_some_iff.1 hlead
      exact bind_eq_some_iff.2 ⟨_, mid, hmark, bind_eq_some_iff.2 ⟨(), start, hgap,
        bind_eq_some_iff.2 ⟨lines, [], (hmany start lines).2 hlines, rfl⟩⟩⟩
  unfold Document.read?
  constructor
  · intro h
    obtain ⟨l, hl, hrest⟩ := Option.bind_eq_some_iff.1 h
    obtain ⟨d, hd, hes⟩ := Option.bind_eq_some_iff.1 hrest
    obtain ⟨start, lines, hlead, hlines, rfl⟩ := (hstatements l).1 (all?_eq_some_iff.1 hl)
    exact ⟨start, lines, d, hlead, hlines, hd, Option.some.inj hes⟩
  · rintro ⟨start, lines, d, hlead, hlines, hd, rfl⟩
    have hl := all?_eq_some_iff.2 ((hstatements _).2 ⟨start, lines, hlead, hlines, rfl⟩)
    exact Option.bind_eq_some_iff.2 ⟨_, hl, Option.bind_eq_some_iff.2 ⟨d, hd, rfl⟩⟩

/-- The line with another string in the slot. -/
theorem line_at {cs' x' : List Char} {o : Option Statement} (hkey : keyPath cs = some (key, '=' :: x))
    (hgap : gap x = some ((), p ++ '"' :: z)) (hkey' : keyPath cs' = some (key, '=' :: x'))
    (hgap' : gap x' = some ((), p ++ '"' :: z')) (h : Reaches (value (maxDepth - 1)) (p ++ '"' :: z) slot ('"' :: z))
    (halike : Alike t t' ('"' :: z) ('"' :: z') rest) (hline : line cs = some (o, m)) :
    ∃ v v', o = some (.pair key v) ∧ slot.Holds t t' v v' ∧ line cs' = some (some (.pair key v'), m) := by
  obtain ⟨⟨_, v⟩, hpair, rfl⟩ := (line_eq_some_iff_of_keyPath (by rw [hkey]; nofun)).1 hline
  obtain ⟨m₁, _, hpair, hend⟩ := seqLeft_eq_some_iff.1 hpair
  obtain ⟨m₂, _, hpair, hend'⟩ := seqLeft_eq_some_iff.1 hpair
  obtain ⟨rfl, hv⟩ := (pair_at hkey hgap).1 hpair
  obtain ⟨v', hv', hholds⟩ := value_of_reaches h halike hv
  have hpair' : pair (value maxDepth) cs' = some ((_, v'), m₂) := (pair_at hkey' hgap').2 ⟨rfl, hv'⟩
  refine ⟨v, v', rfl, hholds, (line_eq_some_iff_of_keyPath (by rw [hkey']; nofun)).2 ⟨(_, v'), ?_, rfl⟩⟩
  exact seqLeft_eq_some_iff.2 ⟨m₁, _, seqLeft_eq_some_iff.2 ⟨m₂, _, hpair', hend'⟩, hend⟩

/-- The way through a document to a string does not depend on what is quoted. -/
theorem Leads.exists_way {before : List (Option Statement)} (h : Leads (p ++ '"' :: z) before key slot ('"' :: z)) :
    ∃ u y x q, Reaches (value (maxDepth - 1)) (q ++ '"' :: z) slot ('"' :: z) ∧
      ∀ z', lead (p ++ '"' :: z') = some ((), u ++ '"' :: z') ∧
        Through line (u ++ '"' :: z') before (y ++ '"' :: z') ∧
        keyPath (y ++ '"' :: z') = some (key, '=' :: (x ++ '"' :: z')) ∧
        gap (x ++ '"' :: z') = some ((), q ++ '"' :: z') := by
  generalize hcs : p ++ '"' :: z = cs at h
  generalize hspot : '"' :: z = spot at h
  obtain ⟨hlead, hlines, hkey, hgap, hreach⟩ := h
  subst hspot
  have hleads : Independent lead := stopsAtMarks_lead.independent
  obtain ⟨q, rfl⟩ := hreach.suffix (isItem_value _)
  obtain ⟨y, x, rfl, hway⟩ := exists_way_of_key hkey hgap
  obtain ⟨u, rfl⟩ := exists_eq_append (hlines.suffix independent_line.shrinks)
  subst hcs
  exact ⟨u, y, x, q, hreach, fun z' =>
    ⟨hleads.transfer hlead (fun _ _ => trivial) z', independent_line.through hlines z', hway z'⟩⟩

/-- With another string in its slot a document has another value in one pair only. -/
theorem Leads.exists_lines {start : List Char} {before lines : List (Option Statement)}
    (h : Leads (p ++ '"' :: z) before key slot ('"' :: z)) (halike : Alike t t' ('"' :: z) ('"' :: z') rest)
    (hlead : lead (p ++ '"' :: z) = some ((), start)) (hlines : Through line start lines []) :
    ∃ v v' after start', slot.Holds t t' v v' ∧ lines = before ++ some (.pair key v) :: after ∧
      lead (p ++ '"' :: z') = some ((), start') ∧
      Through line start' (before ++ some (.pair key v') :: after) [] := by
  obtain ⟨u, y, x, q, hreach, hway⟩ := h.exists_way
  obtain ⟨hlead₁, hbefore, hkey, hgap⟩ := hway z
  obtain ⟨hlead', hbefore', hkey', hgap'⟩ := hway z'
  rw [hlead] at hlead₁
  cases hlead₁
  let E (m : List Char) (l : List (Option Statement)) (rest : List Char) : Prop := m = [] ∧ l = [] ∧ rest = []
  have hE {m : List Char} {l : List (Option Statement)} {rest : List Char} (hend : E m l rest) : line m = none := by
    rw [hend.1]
    exact consumes_line.nil
  have hnext {o : Option Statement} {m : List Char} (h : line (y ++ '"' :: z) = some (o, m)) :
      ∃ o', (∃ v v', o = some (.pair key v) ∧ o' = some (.pair key v') ∧ slot.Holds t t' v v') ∧
        line (y ++ '"' :: z') = some (o', m) := by
    obtain ⟨v, v', ho, hholds, h'⟩ := line_at hkey hgap hkey' hgap' hreach halike h
    exact ⟨_, ⟨v, v', ho, rfl, hholds⟩, h'⟩
  have hlast {l : List (Option Statement)} {m : List Char} (h : E (y ++ '"' :: z) l m) :
      ∃ o o', l = [o] ∧ (∃ v v', o = some (.pair key v) ∧ o' = some (.pair key v') ∧ slot.Holds t t' v v') ∧
        E (y ++ '"' :: z') [o'] m := by
    simp [E] at h
  obtain ⟨_, _, after, l₁', l₂', m', hl, ⟨v, v', rfl, rfl, hholds⟩, hl', hlines', rfl, rfl, -⟩ :=
    Through.graft (r := line) (E := E) hE hnext hlast hbefore hbefore' hlines ⟨rfl, rfl, rfl⟩
  rw [List.append_nil] at hl hl'
  rw [hl'] at hlines'
  exact ⟨v, v', after, _, hholds, hl, hlead', hlines'⟩

/-- With another string at the place of a setting a document has another text in that place only. -/
theorem Leads.read? {s : Config.Setting} {d : Document} {before : List (Option Statement)} {es : Entries}
    (h : Leads (p ++ '"' :: z) before key slot ('"' :: z)) (halike : Alike t t' ('"' :: z) ('"' :: z') rest)
    (hbefore : Document.ofStatements? (before.filterMap id) = some d) (hplace : s.IsAt d key slot)
    (hread : Document.read? (p ++ '"' :: z) = some es) :
    ∃ es', Document.read? (p ++ '"' :: z') = some es' ∧
      Entries.Twin (Entries.Groups t t' s.key s.index) s.group.key es es' := by
  obtain ⟨start, lines, r, hlead, hlines, hr, rfl⟩ := Document.read?_eq_some_iff.1 hread
  obtain ⟨v, v', after, start', hholds, rfl, hlead', hlines'⟩ := h.exists_lines halike hlead hlines
  have hsplit (w : Value) : (before ++ some (.pair key w) :: after).filterMap id =
      before.filterMap id ++ .pair key w :: after.filterMap id := by
    rw [List.filterMap_append]
    rfl
  rw [hsplit] at hr
  obtain ⟨r', hr', htwin⟩ := hplace.ofStatements? hbefore hholds hr
  rw [← hsplit] at hr'
  exact ⟨_, Document.read?_eq_some_iff.2 ⟨_, _, r', hlead', hlines', hr', rfl⟩, htwin.entries⟩

end VaultChat.Toml
