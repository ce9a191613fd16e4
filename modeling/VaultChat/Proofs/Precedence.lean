import VaultChat.Proofs.LetterCase
import VaultChat.Proofs.Numeral
import VaultChat.Proofs.Settings

/-!
# What overrides what

A setting is what its own variable says, and else what the document says, and else the default.  Only five of the
eight variables can be refused, and the first one that is refused decides how loading fails.
-/

namespace VaultChat.Config

open Text Toml

/-! ### Values of variables -/

/-- The text is the name, in letters of any case, between blanks or without. -/
def IsNamed (raw name : String) : Prop := (trim raw.toList).map Char.toLower = name.toList

/-- The error about a text that is none of the names of a choice. -/
def unknownName (choice names raw : String) : Error :=
  .config s!"unknown {choice} '{String.ofList (lowercase (trim raw.toList))}' (expected {names})"

namespace Kind

/-- What is written for a setting stands for this value of it. -/
def Means : (k : Kind) → String → k.Carrier → Prop
  | .token, raw, v => v = some raw
  | .text, raw, v => v = raw
  | .count, raw, n => IsNatural maxUnsigned64 (trim raw.toList) n
  | .backend, raw, v => IsNamed raw v.name
  | .policy, raw, v => IsNamed raw v.name

/-- What is written in the variable `key` stands for nothing, and this is the error about it. -/
inductive Refuses (key raw : String) : Kind → Error → Prop where
  | count (h : ∀ n, ¬ IsNatural maxUnsigned64 (trim raw.toList) n) :
      Refuses key raw .count (.config s!"{key} must be a non-negative integer, got '{raw}'")
  | backend (h : ∀ v : Backend, ¬ IsNamed raw v.name) :
      Refuses key raw .backend (unknownName "session backend" "memory or sqlite" raw)
  | policy (h : ∀ v : Session.RefreshPolicy, ¬ IsNamed raw v.name) :
      Refuses key raw .policy (unknownName "session refresh policy" "never, mutating or always" raw)

/-- Reads what is written in the variable `key`. -/
def read (key raw : String) : (k : Kind) → Except Error k.Carrier
  | .token => .ok (some raw)
  | .text => .ok raw
  | .count => readCount key raw
  | .backend => readBackend raw
  | .policy => readPolicy raw

end Kind

section readName

variable {α : Type} {ofName? : String → Option α} {nameOf : α → String} {choice names raw : String}

private theorem ofName?_eq_some_iff (hname : ∀ name a, ofName? name = some a ↔ name = nameOf a)
    (hascii : ∀ a, ∀ c ∈ (nameOf a).toList, IsAscii c ∧ c ≠ 'k') (a : α) :
    ofName? (String.ofList (lowercase (trim raw.toList))) = some a ↔ IsNamed raw (nameOf a) := by
  rw [hname, ← String.toList_inj, String.toList_ofList, lowercase_eq_iff (hascii a)]
  rfl

/-- Names of ASCII without a `k` are read in letters of any case. -/
theorem readName_eq_ok_iff (hname : ∀ name a, ofName? name = some a ↔ name = nameOf a)
    (hascii : ∀ a, ∀ c ∈ (nameOf a).toList, IsAscii c ∧ c ≠ 'k') (a : α) :
    readName ofName? choice names raw = .ok a ↔ IsNamed raw (nameOf a) := by
  rw [← ofName?_eq_some_iff hname hascii, readName]
  cases ofName? (String.ofList (lowercase (trim raw.toList))) with
  | some b => simp
  | none => simp

theorem readName_eq_error_iff (hname : ∀ name a, ofName? name = some a ↔ name = nameOf a)
    (hascii : ∀ a, ∀ c ∈ (nameOf a).toList, IsAscii c ∧ c ≠ 'k') (e : Error) :
    readName ofName? choice names raw = .error e ↔
      (∀ a, ¬ IsNamed raw (nameOf a)) ∧ e = unknownName choice names raw := by
  simp only [← ofName?_eq_some_iff hname hascii, readName, unknownName]
  cases ofName? (String.ofList (lowercase (trim raw.toList))) with
  | some b => simp
  | none => simp [eq_comm]

end readName

theorem Backend.ofName?_eq_some_iff (name : String) (v : Backend) :
    Backend.ofName? name = some v ↔ name = v.name := by
  unfold Backend.ofName?
  split <;> cases v <;> simp_all [Backend.name]

theorem RefreshPolicy.ofName?_eq_some_iff (name : String) (v : Session.RefreshPolicy) :
    Session.RefreshPolicy.ofName? name = some v ↔ name = v.name := by
  unfold Session.RefreshPolicy.ofName?
  split <;> cases v <;> simp_all [Session.RefreshPolicy.name]

namespace Kind

theorem backend_ascii (v : Backend) : ∀ c ∈ v.name.toList, IsAscii c ∧ c ≠ 'k' := by
  cases v <;> exact forall_mem_of_all (by decide +kernel)

theorem policy_ascii (v : Session.RefreshPolicy) : ∀ c ∈ v.name.toList, IsAscii c ∧ c ≠ 'k' := by
  cases v <;> exact forall_mem_of_all (by decide +kernel)

variable {key raw : String}

theorem read_eq_ok_iff {k : Kind} {v : k.Carrier} : k.read key raw = .ok v ↔ k.Means raw v := by
  cases k with
  | token | text => simp [read, Means, eq_comm]
  | count =>
    simp only [read, Means, readCount, ← readNatural_eq_ok_iff]
    split
    · rename_i h
      simp [h]
    · rename_i h
      simp [h]
  | backend =>
    rw [read, readBackend, readName_eq_ok_iff Backend.ofName?_eq_some_iff backend_ascii]
    rfl
  | policy =>
    rw [read, readPolicy, readName_eq_ok_iff RefreshPolicy.ofName?_eq_some_iff policy_ascii]
    rfl

/-- What is written stands for one value at most. -/
theorem means_inj (k : Kind) {v w : k.Carrier} (hv : k.Means raw v) (hw : k.Means raw w) : v = w := by
  rw [← @read_eq_ok_iff ""] at hv hw
  rwa [hv, Except.ok.injEq] at hw

theorem read_eq_error_iff {k : Kind} {e : Error} : k.read key raw = .error e ↔ k.Refuses key raw e := by
  cases k with
  | token | text => exact ⟨nofun, nofun⟩
  | count =>
    have hrefuses : Refuses key raw .count e ↔ (∀ n, ¬ IsNatural maxUnsigned64 (trim raw.toList) n) ∧
        e = .config s!"{key} must be a non-negative integer, got '{raw}'" :=
      ⟨fun h => by cases h with | count h => exact ⟨h, rfl⟩, fun h => by rw [h.2]; exact .count h.1⟩
    simp only [hrefuses, read, readCount, ← readNatural_eq_ok_iff]
    split
    · rename_i h
      simp [h]
    · rename_i h
      simp [h, eq_comm]
  | backend =>
    rw [read, readBackend, readName_eq_error_iff Backend.ofName?_eq_some_iff backend_ascii]
    constructor
    · rintro ⟨h, rfl⟩
      exact .backend h
    · intro h
      cases h with
      | backend h => exact ⟨h, rfl⟩
  | policy =>
    rw [read, readPolicy, readName_eq_error_iff RefreshPolicy.ofName?_eq_some_iff policy_ascii]
    constructor
    · rintro ⟨h, rfl⟩
      exact .policy h
    · intro h
      cases h with
      | policy h => exact ⟨h, rfl⟩

end Kind

/-! ### Overriding -/

namespace Setting

/-- The settings in the order in which their variables are looked at. -/
def all : List Setting :=
  [.botToken, .vaultUrl, .vaultSeconds, .backend, .databasePath, .sessionSeconds, .refresh, .passwordLength]

/-- The settings that do not take every text, in the same order. -/
def checked : List Setting := [.vaultSeconds, .backend, .sessionSeconds, .refresh, .passwordLength]

/-- The variable of a setting. -/
def envKey : Setting → String
  | .botToken => "TELEGRAM_BOT_TOKEN"
  | .vaultUrl => "VAULT_BASE_URL"
  | .vaultSeconds => "VAULT_TIMEOUT_SECS"
  | .backend => "SESSION_BACKEND"
  | .databasePath => "SESSION_DB_PATH"
  | .sessionSeconds => "SESSION_TTL_SECS"
  | .refresh => "SESSION_REFRESH"
  | .passwordLength => "GEN_DEFAULT_LENGTH"

/-- What the variable of a setting says, if it is set and not empty. -/
def said (env : Environment) (s : Setting) : Option String := (env s.envKey).filter (!·.isEmpty)

/-- The variable says nothing, or a value of the setting. -/
def Fits (env : Environment) (s : Setting) : Prop := ∀ raw, s.said env = some raw → ∃ v, s.kind.Means raw v

/-- The setting has the value `v` after the override if it had `default` before. -/
def Settled (env : Environment) (s : Setting) (default v : s.kind.Carrier) : Prop :=
  (∀ raw, s.said env = some raw → s.kind.Means raw v) ∧ (s.said env = none → v = default)

/-- The error about what the variable says. -/
def refusal? (env : Environment) (s : Setting) : Option Error :=
  match s.said env with
  | some raw =>
    match s.kind.read s.envKey raw with
    | .ok _ => none
    | .error e => some e
  | none => none

/-- The override of a setting. -/
def toOverride (s : Setting) : Override :=
  ⟨s.envKey, fun raw c => do return s.set (← s.kind.read s.envKey raw) c⟩

variable {env env' : Environment} {s : Setting} {c c' : Config} {e : Error}

theorem nodup_all : all.Nodup := by decide

theorem mem_all (s : Setting) : s ∈ all := by
  cases s <;> decide

theorem refusal?_eq_some_iff :
    s.refusal? env = some e ↔ ∃ raw, s.said env = some raw ∧ s.kind.Refuses s.envKey raw e := by
  unfold refusal?
  cases s.said env with
  | none => simp
  | some raw =>
    simp only [Option.some.injEq, exists_eq_left', ← Kind.read_eq_error_iff]
    cases s.kind.read s.envKey raw <;> simp

theorem refusal?_eq_none_iff : s.refusal? env = none ↔ s.Fits env := by
  unfold refusal? Fits
  cases s.said env with
  | none => simp
  | some raw =>
    simp only [Option.some.injEq, forall_eq', ← @Kind.read_eq_ok_iff s.envKey]
    cases s.kind.read s.envKey raw <;> simp

/-- A text is not refused. -/
theorem refusal?_of_not_mem_checked (h : s ∉ checked) : s.refusal? env = none := by
  refine refusal?_eq_none_iff.2 fun raw _ => ?_
  cases s with
  | botToken => exact ⟨some raw, rfl⟩
  | vaultUrl | databasePath => exact ⟨raw, rfl⟩
  | vaultSeconds | backend | sessionSeconds | refresh | passwordLength => exact absurd (by decide) h

/-- The first setting of all that is refused is the first one of those that are checked. -/
theorem findSome?_refusal? : all.findSome? (refusal? env) = checked.findSome? (refusal? env) := by
  have htoken : refusal? env .botToken = none := refusal?_of_not_mem_checked (by decide)
  have hurl : refusal? env .vaultUrl = none := refusal?_of_not_mem_checked (by decide)
  have hpath : refusal? env .databasePath = none := refusal?_of_not_mem_checked (by decide)
  simp only [all, checked, List.findSome?_cons, htoken, hurl, hpath]

theorem applyOverride_toOverride :
    applyOverride env c s.toOverride =
      match s.said env with
      | some raw => (s.kind.read s.envKey raw).map (s.set · c)
      | none => .ok c := by
  unfold applyOverride said toOverride
  cases env s.envKey with
  | none => rfl
  | some raw =>
    cases hraw : raw.isEmpty with
    | true => simp [hraw, Option.filter]
    | false =>
      simp only [hraw, Option.filter, Bool.not_false, ↓reduceIte, Bool.false_eq_true]
      cases s.kind.read s.envKey raw <;> rfl

theorem applyOverride_eq_error_iff : applyOverride env c s.toOverride = .error e ↔ s.refusal? env = some e := by
  rw [applyOverride_toOverride, refusal?]
  cases s.said env with
  | none => simp
  | some raw => cases h : s.kind.read s.envKey raw <;> simp [h, Except.map]

theorem applyOverride_eq_ok_iff :
    applyOverride env c s.toOverride = .ok c' ↔ ∃ v, s.Settled env (s.get c) v ∧ c' = s.set v c := by
  rw [applyOverride_toOverride]
  unfold Settled
  cases s.said env with
  | none => simp [eq_comm]
  | some raw =>
    simp only [Option.some.injEq, forall_eq', ← @Kind.read_eq_ok_iff s.envKey]
    cases s.kind.read s.envKey raw <;> simp [Except.map, eq_comm]

/-- The first override settles its setting, and the others go on from there. -/
private theorem foldlM_cons_eq_ok_iff {t : Setting} {l : List Setting} :
    ((t :: l).map toOverride).foldlM (applyOverride env) c = .ok c' ↔
      ∃ v, t.Settled env (t.get c) v ∧ (l.map toOverride).foldlM (applyOverride env) (t.set v c) = .ok c' := by
  rw [List.map_cons, List.foldlM_cons]
  cases h : applyOverride env c t.toOverride with
  | ok c₁ =>
    obtain ⟨v, hv, rfl⟩ := applyOverride_eq_ok_iff.1 h
    refine ⟨fun hrest => ⟨v, hv, hrest⟩, ?_⟩
    rintro ⟨w, hw, hrest⟩
    have hsame := h.symm.trans (applyOverride_eq_ok_iff.2 ⟨w, hw, rfl⟩)
    rw [Except.ok.injEq] at hsame
    rw [hsame]
    exact hrest
  | error e =>
    refine ⟨nofun, ?_⟩
    rintro ⟨v, hv, -⟩
    have hok := applyOverride_eq_ok_iff.2 ⟨v, hv, rfl⟩
    rw [h] at hok
    cases hok

/-- Overrides one after another settle their own settings and leave the others alone. -/
theorem foldlM_eq_ok_iff {l : List Setting} (hl : l.Nodup) :
    (l.map toOverride).foldlM (applyOverride env) c = .ok c' ↔
      ∀ s : Setting, if s ∈ l then s.Settled env (s.get c) (s.get c') else s.get c' = s.get c := by
  induction l generalizing c with
  | nil =>
    simp only [List.map_nil, List.foldlM_nil, List.not_mem_nil, if_false]
    constructor
    · rintro ⟨⟩ s
      rfl
    · intro h
      rw [ext_get h]
      rfl
  | cons t l ih =>
    obtain ⟨ht, hl⟩ := List.nodup_cons.1 hl
    rw [foldlM_cons_eq_ok_iff]
    simp only [ih hl]
    constructor
    · rintro ⟨v, hv, hrest⟩ s
      by_cases hs : s = t
      · subst hs
        have hsame := hrest s
        rw [if_neg ht, get_set] at hsame
        rwa [if_pos List.mem_cons_self, hsame]
      · have hother := hrest s
        rw [get_set_of_ne hs] at hother
        simpa only [List.mem_cons, hs, false_or] using hother
    · intro h
      have ht' := h t
      rw [if_pos List.mem_cons_self] at ht'
      refine ⟨t.get c', ht', fun s => ?_⟩
      by_cases hs : s = t
      · subst hs
        rw [if_neg ht, get_set]
      · have hother := h s
        rw [get_set_of_ne hs]
        simpa only [List.mem_cons, hs, false_or] using hother

theorem foldlM_eq_error_iff {l : List Setting} :
    (l.map toOverride).foldlM (applyOverride env) c = .error e ↔ l.findSome? (refusal? env) = some e := by
  induction l generalizing c with
  | nil => exact ⟨nofun, nofun⟩
  | cons s l ih =>
    rw [List.map_cons, List.foldlM_cons, List.findSome?_cons]
    cases h : applyOverride env c s.toOverride with
    | ok c₁ =>
      have hnone : s.refusal? env = none := by
        refine Option.eq_none_iff_forall_ne_some.2 fun e' he' => ?_
        rw [← applyOverride_eq_error_iff (c := c), h] at he'
        cases he'
      rw [hnone]
      exact ih
    | error e' =>
      rw [applyOverride_eq_error_iff.1 h]
      exact ⟨fun h => by cases h; rfl, fun h => by cases h; rfl⟩

end Setting

variable {env : Environment} {c c' : Config}

theorem overrides_eq : overrides = Setting.all.map Setting.toOverride := rfl

theorem override_eq_ok_iff : override env c = .ok c' ↔ ∀ s : Setting, s.Settled env (s.get c) (s.get c') := by
  rw [override, overrides_eq, Setting.foldlM_eq_ok_iff Setting.nodup_all]
  exact forall_congr' fun s => by rw [if_pos (Setting.mem_all s)]

/-- Overriding fails with the error about the first setting whose variable is refused. -/
theorem override_eq_error_iff {e : Error} :
    override env c = .error e ↔ ∃ before s after raw, Setting.checked = before ++ s :: after ∧
      (∀ s' ∈ before, s'.Fits env) ∧ s.said env = some raw ∧ s.kind.Refuses s.envKey raw e := by
  rw [override, overrides_eq, Setting.foldlM_eq_error_iff, Setting.findSome?_refusal?, List.findSome?_eq_some_iff]
  constructor
  · rintro ⟨before, s, after, hsplit, hs, hbefore⟩
    obtain ⟨raw, hraw, hrefuses⟩ := Setting.refusal?_eq_some_iff.1 hs
    exact ⟨before, s, after, raw, hsplit, fun s' hs' => Setting.refusal?_eq_none_iff.1 (hbefore s' hs'), hraw,
      hrefuses⟩
  · rintro ⟨before, s, after, raw, hsplit, hbefore, hraw, hrefuses⟩
    exact ⟨before, s, after, hsplit, Setting.refusal?_eq_some_iff.2 ⟨raw, hraw, hrefuses⟩,
      fun s' hs' => Setting.refusal?_eq_none_iff.2 (hbefore s' hs')⟩

theorem exists_override_eq_ok_iff : (∃ c', override env c = .ok c') ↔ ∀ s ∈ Setting.checked, s.Fits env := by
  have herror (e : Error) :
      override env c = .error e ↔ Setting.checked.findSome? (Setting.refusal? env) = some e := by
    rw [override, overrides_eq, Setting.foldlM_eq_error_iff, Setting.findSome?_refusal?]
  have hnone : (∀ s ∈ Setting.checked, s.Fits env) ↔ Setting.checked.findSome? (Setting.refusal? env) = none := by
    rw [List.findSome?_eq_none_iff]
    exact forall₂_congr fun s _ => Setting.refusal?_eq_none_iff.symm
  rw [hnone]
  cases h : override env c with
  | ok c' =>
    refine ⟨fun _ => Option.eq_none_iff_forall_ne_some.2 fun e he => ?_, fun _ => ⟨c', rfl⟩⟩
    rw [← herror, h] at he
    cases he
  | error e =>
    rw [(herror e).1 h]
    refine ⟨?_, nofun⟩
    rintro ⟨c', hok⟩
    cases hok

/-- What the variables say, they say the second time as well. -/
theorem override_override : override env c >>= override env = override env c := by
  cases h : override env c with
  | error => rfl
  | ok c' =>
    refine override_eq_ok_iff.2 fun s => ⟨(override_eq_ok_iff.1 h s).1, fun _ => rfl⟩

theorem ofText_empty : ofText env "" = .ok {} := by
  rfl

/-- Without a file, configuration goes as with an empty one. -/
theorem ofEnvironment_eq_ofFile : ofEnvironment env = ofFile env (some ByteArray.empty) := by
  have hdecode : String.fromUTF8? ByteArray.empty = some "" := by decide +kernel
  rw [ofFile, hdecode]
  simp only [ofText_empty]
  rfl

theorem ofText_eq_ok_iff {text : String} :
    ofText env text = .ok c ↔ ∃ es, Document.read? (env.expand text.toList) = some es ∧ ofEntries? es = some c := by
  rw [← Option.bind_eq_some_iff]
  unfold ofText
  cases (Document.read? (env.expand text.toList)).bind ofEntries? with
  | none => simp
  | some c' => simp

/-- A configuration is loaded from a file that can be read exactly if every variable that is set and not empty is a
value of its setting, and fails otherwise with the error about the first one that is not.  Each setting is then what
its own variable says, and else what the file says at the place of the setting, and else the default.  Overriding a
second time changes nothing, and without a file it goes as with an empty one. -/
theorem settings_precedence {env : Environment} {bytes : ByteArray} {text : String} {c₀ : Config}
    (hbytes : String.fromUTF8? bytes = some text) (hfile : ofText env text = .ok c₀) :
    ((∃ c, ofFile env (some bytes) = .ok c) ↔ ∀ s ∈ Setting.checked, s.Fits env) ∧
    (∀ e, ofFile env (some bytes) = .error e ↔ ∃ before s after raw, Setting.checked = before ++ s :: after ∧
      (∀ s' ∈ before, s'.Fits env) ∧ s.said env = some raw ∧ s.kind.Refuses s.envKey raw e) ∧
    (∀ c, ofFile env (some bytes) = .ok c ↔ ∀ s : Setting,
      (∀ raw, s.said env = some raw → s.kind.Means raw (s.get c)) ∧ (s.said env = none → s.get c = s.get c₀)) ∧
    (∃ es, Document.read? (env.expand text.toList) = some es ∧ ∀ s : Setting,
      (∀ v, s.value? es = some v → s.kind.ofValue? v = some (s.get c₀)) ∧
      (s.value? es = none → s.get c₀ = s.get {})) ∧
    (∀ (env' : Environment) (s : Setting) (c c' : Config), override env c₀ = .ok c → override env' c₀ = .ok c' →
      s.said env' = s.said env → s.get c' = s.get c) ∧
    (∀ c, override env c >>= override env = override env c) ∧
    ofEnvironment env = ofFile env (some ByteArray.empty) := by
  have hload : ofFile env (some bytes) = override env c₀ := by
    rw [ofFile, hbytes]
    simp only [hfile]
    rfl
  rw [hload]
  refine ⟨exists_override_eq_ok_iff, fun e => override_eq_error_iff, fun c => override_eq_ok_iff, ?_, ?_,
    fun c => override_override, ofEnvironment_eq_ofFile⟩
  · obtain ⟨es, hread, hes⟩ := ofText_eq_ok_iff.1 hfile
    refine ⟨es, hread, fun s => ?_⟩
    have hs := (ofEntries?_eq_some_iff.1 hes).2 s
    unfold Setting.ofEntries? at hs
    cases hv : s.value? es with
    | none =>
      rw [hv] at hs
      exact ⟨nofun, fun _ => (Option.some.inj hs).symm⟩
    | some v =>
      rw [hv] at hs
      exact ⟨fun w hw => by rwa [← Option.some.inj hw], nofun⟩
  · intro env' s c c' h h' hsaid
    have hs := override_eq_ok_iff.1 h s
    have hs' := override_eq_ok_iff.1 h' s
    cases hraw : s.said env with
    | none => rw [hs.2 hraw, hs'.2 (hsaid.trans hraw)]
    | some raw => exact s.kind.means_inj (hs'.1 raw (hsaid.trans hraw)) (hs.1 raw hraw)

theorem eq_ok_of_toOption {r : Except Error Config} (h : r.toOption = some c) : r = .ok c := by
  cases r with
  | ok c' => rw [Option.some.inj h]
  | error e => cases h

/-- Values in the variables of settings, one of them empty. -/
def mixed : Environment
  | "VAULT_TIMEOUT_SECS" => some " +07"
  | "SESSION_BACKEND" => some "SQLite\n"
  | "SESSION_DB_PATH" => some ""
  | _ => none

/-- The time limit and the backend are those of the variables, the path is that of the file, and the lifetime of
sessions the default. -/
theorem settings_precedence_mixed :
    let text := "[session]\ndb_path = 's.db'\nbackend = \"memory\"\n[vault]\ntimeout_secs = 5\n"
    let c : Config := { vaultSeconds := 7, backend := .sqlite, databasePath := "s.db" }
    ofFile mixed (some text.toUTF8) = .ok c ∧ IsNatural maxUnsigned64 ['+', '0', '7'] c.vaultSeconds ∧
      IsNamed "SQLite\n" c.backend.name ∧ ∀ s ∈ Setting.checked, s.Fits mixed := by
  intro text c
  have hbytes : String.fromUTF8? text.toUTF8 = some text := by decide +kernel
  have hfile : ofText mixed text = .ok { vaultSeconds := 5, databasePath := "s.db" } :=
    eq_ok_of_toOption (by decide +kernel)
  have hloaded : ofFile mixed (some text.toUTF8) = .ok c := eq_ok_of_toOption (by decide +kernel)
  obtain ⟨hfits, -, hsettled, -⟩ := settings_precedence hbytes hfile
  have hseconds := ((hsettled c).1 hloaded .vaultSeconds).1 " +07" (by decide +kernel)
  have hbackend := ((hsettled c).1 hloaded .backend).1 "SQLite\n" (by decide +kernel)
  have htrim : trim " +07".toList = ['+', '0', '7'] := by decide +kernel
  rw [← htrim]
  exact ⟨hloaded, hseconds, hbackend, hfits.1 ⟨c, hloaded⟩⟩

end VaultChat.Config
