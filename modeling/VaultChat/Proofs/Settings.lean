import VaultChat.Config.Sections

/-!
# The settings of a configuration

The eight settings of a configuration, each with the place that it has in a document.  A configuration is what its
settings are (`ext_get`), and changing one leaves the others alone (`get_set_of_ne`).  A document is read setting by
setting: the value at the place of a setting makes the setting, and the default where there is none
(`ofEntries?_eq_some_iff`).
-/

namespace VaultChat.Config

open Toml

/-- What a setting takes. -/
inductive Kind where
  | token
  | text
  | count
  | backend
  | policy

namespace Kind

/-- The values of a setting. -/
abbrev Carrier : Kind → Type
  | .token => Option String
  | .text => String
  | .count => Nat
  | .backend => Backend
  | .policy => Session.RefreshPolicy

/-- The value of a setting that a value of a document stands for. -/
def ofValue? : (k : Kind) → Value → Option k.Carrier
  | .token => fun v => (textOf? v).map some
  | .text => textOf?
  | .count => countOf?
  | .backend => choiceOf? Backend.ofName?
  | .policy => choiceOf? Session.RefreshPolicy.ofName?

end Kind

/-- A group of settings. -/
inductive Group where
  | telegram
  | vault
  | session
  | generator
  deriving DecidableEq

namespace Group

def key : Group → String
  | .telegram => "telegram"
  | .vault => "vault"
  | .session => "session"
  | .generator => "generator"

/-- The keys of the settings, in the order in which an array gives their values. -/
def keys : Group → List String
  | .telegram => ["token"]
  | .vault => ["base_url", "timeout_secs"]
  | .session => ["backend", "db_path", "ttl_secs", "refresh"]
  | .generator => ["default_length"]

end Group

inductive Setting where
  | botToken
  | vaultUrl
  | vaultSeconds
  | backend
  | databasePath
  | sessionSeconds
  | refresh
  | passwordLength
  deriving DecidableEq

namespace Setting

def kind : Setting → Kind
  | .botToken => .token
  | .vaultUrl | .databasePath => .text
  | .vaultSeconds | .sessionSeconds | .passwordLength => .count
  | .backend => .backend
  | .refresh => .policy

def group : Setting → Group
  | .botToken => .telegram
  | .vaultUrl | .vaultSeconds => .vault
  | .backend | .databasePath | .sessionSeconds | .refresh => .session
  | .passwordLength => .generator

/-- The key in the group. -/
def key : Setting → String
  | .botToken => "token"
  | .vaultUrl => "base_url"
  | .vaultSeconds => "timeout_secs"
  | .backend => "backend"
  | .databasePath => "db_path"
  | .sessionSeconds => "ttl_secs"
  | .refresh => "refresh"
  | .passwordLength => "default_length"

def get : (s : Setting) → Config → s.kind.Carrier
  | .botToken, c => c.botToken
  | .vaultUrl, c => c.vaultUrl
  | .vaultSeconds, c => c.vaultSeconds
  | .backend, c => c.backend
  | .databasePath, c => c.databasePath
  | .sessionSeconds, c => c.sessionSeconds
  | .refresh, c => c.refresh
  | .passwordLength, c => c.passwordLength

def set : (s : Setting) → s.kind.Carrier → Config → Config
  | .botToken, v, c => { c with botToken := v }
  | .vaultUrl, v, c => { c with vaultUrl := v }
  | .vaultSeconds, v, c => { c with vaultSeconds := v }
  | .backend, v, c => { c with backend := v }
  | .databasePath, v, c => { c with databasePath := v }
  | .sessionSeconds, v, c => { c with sessionSeconds := v }
  | .refresh, v, c => { c with refresh := v }
  | .passwordLength, v, c => { c with passwordLength := v }

variable {s s' : Setting} {c c' : Config}

@[simp] theorem get_set (v : s.kind.Carrier) : s.get (s.set v c) = v := by
  cases s <;> rfl

theorem get_set_of_ne (h : s' ≠ s) (v : s.kind.Carrier) : s'.get (s.set v c) = s'.get c := by
  cases s <;> cases s' <;> first | rfl | exact absurd rfl h

@[simp] theorem set_get : s.set (s.get c) c = c := by
  cases s <;> rfl

/-- Two configurations with the same settings are the same. -/
theorem ext_get (h : ∀ s : Setting, s.get c = s.get c') : c = c' := by
  obtain ⟨token, url, seconds, backend, path, ttl, refresh, length⟩ := c
  obtain ⟨token', url', seconds', backend', path', ttl', refresh', length'⟩ := c'
  obtain rfl : token = token' := h .botToken
  obtain rfl : url = url' := h .vaultUrl
  obtain rfl : seconds = seconds' := h .vaultSeconds
  obtain rfl : backend = backend' := h .backend
  obtain rfl : path = path' := h .databasePath
  obtain rfl : ttl = ttl' := h .sessionSeconds
  obtain rfl : refresh = refresh' := h .refresh
  obtain rfl : length = length' := h .passwordLength
  rfl

end Setting

/-! ### Documents -/

/-- The settings of a group in a document that has the group in a form that can be read. -/
def Group.entries? (g : Group) (es : Entries) : Option Entries := (es.find? g.key).bind (settingsOf? g.keys)

/-- Every group that is there can be read. -/
def Group.IsReadable (g : Group) (es : Entries) : Prop := es.find? g.key = none ∨ (g.entries? es).isSome

namespace Setting

/-- The value at the place of the setting. -/
def value? (s : Setting) (es : Entries) : Option Value := (s.group.entries? es).bind (·.find? s.key)

/-- What a document makes of the setting: its value there, or else the default. -/
def ofEntries? (s : Setting) (es : Entries) (default : s.kind.Carrier) : Option s.kind.Carrier :=
  match s.value? es with
  | some v => s.kind.ofValue? v
  | none => some default

/-- A statement about every setting, setting by setting. -/
theorem forall_iff {p : Setting → Prop} :
    (∀ s, p s) ↔ p .botToken ∧ p .vaultUrl ∧ p .vaultSeconds ∧ p .backend ∧ p .databasePath ∧ p .sessionSeconds ∧
      p .refresh ∧ p .passwordLength := by
  constructor
  · intro h
    exact ⟨h _, h _, h _, h _, h _, h _, h _, h _⟩
  · rintro ⟨h₁, h₂, h₃, h₄, h₅, h₆, h₇, h₈⟩ (_ | _ | _ | _ | _ | _ | _ | _) <;> assumption

end Setting

namespace Group

variable {g : Group} {es inner : Entries} {c c' : Config}

/-- The settings of the group are made of `inner`, and all others stay as they are. -/
def Settles (g : Group) (inner : Entries) (c c' : Config) : Prop :=
  ∀ s : Setting, if s.group = g then setting inner s.key s.kind.ofValue? (s.get c) = some (s.get c')
    else s.get c' = s.get c

/-- Reading the group takes the one configuration to the other. -/
def Reads (g : Group) (es : Entries) (c c' : Config) : Prop :=
  g.IsReadable es ∧ ∀ s : Setting,
    if s.group = g then s.ofEntries? es (s.get c) = some (s.get c') else s.get c' = s.get c

/-- Where a group is missing, its settings stay as they are. -/
theorem reads_of_missing (h : es.find? g.key = none) : g.Reads es c c' ↔ c' = c := by
  have hnone (s : Setting) (hs : s.group = g) (v : s.kind.Carrier) : s.ofEntries? es v = some v := by
    unfold Setting.ofEntries? Setting.value? entries?
    rw [hs, h]
    rfl
  constructor
  · rintro ⟨-, hreads⟩
    refine Setting.ext_get fun s => ?_
    have hs := hreads s
    split at hs
    · rename_i hgroup
      rw [hnone s hgroup] at hs
      exact (Option.some.inj hs).symm
    · exact hs
  · rintro rfl
    refine ⟨.inl h, fun s => ?_⟩
    split
    · rename_i hgroup
      exact hnone s hgroup _
    · rfl

theorem reads_of_found (h : g.entries? es = some inner) : g.Reads es c c' ↔ g.Settles inner c c' := by
  have hread (s : Setting) (hs : s.group = g) (v : s.kind.Carrier) :
      s.ofEntries? es v = setting inner s.key s.kind.ofValue? v := by
    unfold Setting.ofEntries? Setting.value?
    rw [hs, h]
    rfl
  have hreadable : g.IsReadable es := .inr (by rw [h]; rfl)
  rw [Reads, and_iff_right hreadable, Settles]
  refine forall_congr' fun s => ?_
  split
  · rename_i hgroup
    rw [hread s hgroup]
  · exact Iff.rfl

theorem withGroup_eq_some_iff (g : Group) {read : Entries → Config → Option Config}
    (h : ∀ inner, read inner c = some c' ↔ g.Settles inner c c') :
    withGroup es g.key g.keys read c = some c' ↔ g.Reads es c c' := by
  unfold withGroup
  cases hfind : es.find? g.key with
  | none => rw [reads_of_missing hfind, Option.some.injEq, eq_comm]
  | some v =>
    have hentries : g.entries? es = settingsOf? g.keys v := by rw [entries?, hfind]; rfl
    show (settingsOf? g.keys v).bind _ = some c' ↔ _
    cases hinner : settingsOf? g.keys v with
    | none =>
      refine ⟨nofun, fun hreads => ?_⟩
      rcases hreads.1 with hmissing | hsome
      · rw [hfind] at hmissing
        cases hmissing
      · rw [hentries, hinner] at hsome
        cases hsome
    | some inner => rw [reads_of_found (hentries.trans hinner), Option.bind_some, h]

end Group

variable {es : Entries} {c c' : Config}

theorem readVault_eq_some_iff : readVault es c = some c' ↔ Group.vault.Reads es c c' := by
  refine Group.withGroup_eq_some_iff .vault fun inner => ?_
  cases c'
  simp [Group.Settles, Setting.forall_iff, Setting.group, Setting.get, Setting.key, Setting.kind, Kind.ofValue?,
    Option.bind_eq_some_iff]
  grind

theorem readSession_eq_some_iff : readSession es c = some c' ↔ Group.session.Reads es c c' := by
  refine Group.withGroup_eq_some_iff .session fun inner => ?_
  cases c'
  simp [Group.Settles, Setting.forall_iff, Setting.group, Setting.get, Setting.key, Setting.kind, Kind.ofValue?,
    Option.bind_eq_some_iff]
  grind

theorem readGenerator_eq_some_iff : readGenerator es c = some c' ↔ Group.generator.Reads es c c' := by
  refine Group.withGroup_eq_some_iff .generator fun inner => ?_
  cases c'
  simp [Group.Settles, Setting.forall_iff, Setting.group, Setting.get, Setting.key, Setting.kind, Kind.ofValue?,
    Option.bind_eq_some_iff]
  grind

theorem readTelegram_eq_some_iff :
    readTelegram es c = some c' ↔ es.find? "telegram" ≠ some (.array []) ∧ Group.telegram.Reads es c c' := by
  have hgroup : withGroup es "telegram" ["token"] (fun es c => do
      return { c with botToken := ← setting es "token" (fun v => (textOf? v).map some) c.botToken }) c = some c' ↔
      Group.telegram.Reads es c c' := by
    refine Group.withGroup_eq_some_iff .telegram fun inner => ?_
    cases c'
    simp [Group.Settles, Setting.forall_iff, Setting.group, Setting.get, Setting.key, Setting.kind, Kind.ofValue?,
      Option.bind_eq_some_iff]
    grind
  unfold readTelegram
  split
  · rename_i h
    simp [h]
  · rename_i h
    rw [hgroup, and_iff_right h]

/-- Every group that is there can be read, and an empty array is no token. -/
def IsReadable (es : Entries) : Prop := es.find? "telegram" ≠ some (.array []) ∧ ∀ g : Group, g.IsReadable es

/-- A document is read setting by setting. -/
theorem ofEntries?_eq_some_iff :
    ofEntries? es = some c ↔ IsReadable es ∧ ∀ s : Setting, s.ofEntries? es (s.get {}) = some (s.get c) := by
  simp only [ofEntries?, Option.bind_eq_bind, Option.bind_eq_some_iff, readTelegram_eq_some_iff,
    readVault_eq_some_iff, readSession_eq_some_iff, readGenerator_eq_some_iff]
  constructor
  · rintro ⟨c₃, ⟨c₂, ⟨c₁, ⟨htoken, htelegram⟩, hvault⟩, hsession⟩, hgenerator⟩
    refine ⟨⟨htoken, ?_⟩, fun s => ?_⟩
    · rintro (_ | _ | _ | _)
      · exact htelegram.1
      · exact hvault.1
      · exact hsession.1
      · exact hgenerator.1
    · have h₁ := htelegram.2 s
      have h₂ := hvault.2 s
      have h₃ := hsession.2 s
      have h₄ := hgenerator.2 s
      -- one of the four steps reads the setting, and the others keep it
      cases hg : s.group with
      | telegram =>
        simp only [hg, reduceCtorEq, ↓reduceIte] at h₁ h₂ h₃ h₄
        rw [h₁, h₄, h₃, h₂]
      | vault =>
        simp only [hg, reduceCtorEq, ↓reduceIte] at h₁ h₂ h₃ h₄
        rw [← h₁, h₂, h₄, h₃]
      | session =>
        simp only [hg, reduceCtorEq, ↓reduceIte] at h₁ h₂ h₃ h₄
        rw [← h₁, ← h₂, h₃, h₄]
      | generator =>
        simp only [hg, reduceCtorEq, ↓reduceIte] at h₁ h₂ h₃ h₄
        rw [← h₁, ← h₂, ← h₃, h₄]
  · rintro ⟨⟨htoken, hreadable⟩, h⟩
    let c₁ : Config := { botToken := c.botToken }
    let c₂ : Config := { c₁ with vaultUrl := c.vaultUrl, vaultSeconds := c.vaultSeconds }
    let c₃ : Config := { c with passwordLength := c₂.passwordLength }
    refine ⟨c₃, ⟨c₂, ⟨c₁, ⟨htoken, hreadable _, ?_⟩, hreadable _, ?_⟩, hreadable _, ?_⟩, hreadable _, ?_⟩
    all_goals
      rintro (_ | _ | _ | _ | _ | _ | _ | _)
      all_goals first | exact h _ | rfl

end VaultChat.Config
