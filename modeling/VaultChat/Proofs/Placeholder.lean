import VaultChat.Proofs.Expansion
import VaultChat.Proofs.Precedence
import VaultChat.Proofs.Whereabouts

/-!
# A variable in place of a setting

References are replaced in the text of a document, before the document is read.  So the value of a variable that is
referred to between quotation marks can close them and go on with settings of its own (`quoted_variable_sets_others`).
A value that spells a string between quotation marks sets the setting there and nothing else
(`quoted_variable_sets_one_setting`).
-/

namespace VaultChat

namespace Environment

variable {env env' : Environment} {name : List Char} {ps : List Piece}

/-- The environment without the variable. -/
def without (env : Environment) (name : List Char) : Environment := fun key =>
  if key = String.ofList name then none else env key

/-- The stretch is a reference to the variable. -/
def Piece.Names (name : List Char) : Piece → Prop
  | .verbatim _ => False
  | .reference other | .unclosed other => other = name

theorem value_without (env : Environment) (name : List Char) : (env.without name).value name = [] := by
  have hnone : env.without name (String.ofList name) = none := if_pos rfl
  rw [value, hnone]
  rfl

theorem without_of_ne {key : String} (h : key ≠ String.ofList name) : env.without name key = env key := if_neg h

/-- Without a reference to a variable, its value does not matter. -/
theorem flatMap_expanded_congr (h : ∀ piece ∈ ps, ¬ piece.Names name)
    (henv : ∀ key, key ≠ String.ofList name → env' key = env key) :
    ps.flatMap (·.expanded env') = ps.flatMap (·.expanded env) := by
  have hother {other : List Char} (hne : other ≠ name) : env'.value other = env.value other := by
    rw [value, value, henv _ fun heq => hne (String.ofList_injective heq)]
  refine List.flatMap_congr fun piece hpiece => ?_
  cases piece with
  | verbatim cs => rfl
  | reference other | unclosed other => exact hother (h _ hpiece)

end Environment

namespace Config

open Environment (Piece Reads)
open Toml

variable {s : Setting}

/-- Between the two texts of a document a pair of quotation marks is a string on a single line, and the value of the
setting.  A third mark would open a string of several lines. -/
def Setting.StandsBetween (s : Setting) (p q : List Char) : Prop :=
  q.head? ≠ some '"' ∧ ∃ lines d key slot, Leads (p ++ '"' :: '"' :: q) lines key slot ('"' :: '"' :: q) ∧
    Document.ofStatements? (lines.filterMap id) = some d ∧ s.IsAt d key slot

/-- The settings that are texts take every text. -/
theorem Setting.exists_ofValue?_text (hs : s ∈ [Setting.botToken, .vaultUrl, .databasePath]) (t : String) :
    ∃ v, s.kind.ofValue? (.text t) = some v ∧ s.kind.Means t v := by
  rcases s with _ | _ | _ | _ | _ | _ | _ | _
  case botToken => exact ⟨some t, rfl, rfl⟩
  case vaultUrl | databasePath => exact ⟨t, rfl, rfl⟩
  all_goals exact absurd hs (by decide)

section quoted

variable {env env' : Environment} {name x x' p q : List Char} {text : String} {before after : List Piece}
  {c₀ : Config}

/-- A reference between quotation marks that are the value of a setting. -/
theorem ofText_eq_of_quoted (hs : s ∈ [Setting.botToken, .vaultUrl, .databasePath])
    (hreads : Reads text.toList (before ++ .reference name :: after))
    (honly : ∀ piece ∈ before ++ after, ¬ piece.Names name)
    (hbefore : before.flatMap (·.expanded env) = p ++ ['"']) (hafter : after.flatMap (·.expanded env) = '"' :: q)
    (hplace : s.StandsBetween p q) (hunset : ofText (env.without name) text = .ok c₀)
    (hvalue : Spells (env.value name) x) :
    ∃ v, s.kind.Means (String.ofList x) v ∧ ofText env text = .ok (s.set v c₀) := by
  obtain ⟨hquote, lines, d, key, slot, hleads, hd, hplace⟩ := hplace
  have hexpand : env.expand text.toList = p ++ '"' :: (env.value name ++ '"' :: q) := by
    rw [Environment.expand_of_reads hreads, List.flatMap_append, List.flatMap_cons, hbefore, hafter,
      List.append_assoc]
    rfl
  have hexpand₀ : (env.without name).expand text.toList = p ++ '"' :: '"' :: q := by
    have hcongr {ps : List Piece} (h : ∀ piece ∈ ps, ¬ piece.Names name) :
        ps.flatMap (·.expanded (env.without name)) = ps.flatMap (·.expanded env) :=
      Environment.flatMap_expanded_congr h fun key hkey => Environment.without_of_ne hkey
    rw [Environment.expand_of_reads hreads, List.flatMap_append, List.flatMap_cons,
      hcongr fun piece hp => honly piece (List.mem_append_left _ hp),
      hcongr fun piece hp => honly piece (List.mem_append_right _ hp), hbefore, hafter, Piece.expanded,
      Environment.value_without, List.append_assoc]
    rfl
  obtain ⟨es, hes, hc₀⟩ := ofText_eq_ok_iff.1 hunset
  rw [hexpand₀] at hes
  have halike : Alike "" (String.ofList x) ('"' :: '"' :: q) ('"' :: (env.value name ++ '"' :: q)) q :=
    ⟨value_of_spells (.here : Spells [] []) hquote, value_of_spells hvalue hquote⟩
  obtain ⟨es', hes', htwin⟩ := hleads.read? halike hd hplace hes
  obtain ⟨v, hv, hmeans⟩ := Setting.exists_ofValue?_text hs (String.ofList x)
  refine ⟨v, hmeans, ofText_eq_ok_iff.2 ⟨es', ?_, ofEntries?_twin htwin hc₀ hv⟩⟩
  rw [hexpand]
  exact hes'

/-- Where a document is accepted without a variable, and the only reference to it is all there is between the
quotation marks of a text setting, every value that spells a string between quotation marks is accepted.  In two
environments that differ in the variable all other settings are the same, and that setting is what the value spells:
the value as it is, if it has no quotation mark, backslash or control character. -/
theorem quoted_variable_sets_one_setting (hs : s ∈ [Setting.botToken, .vaultUrl, .databasePath])
    (hreads : Reads text.toList (before ++ .reference name :: after))
    (honly : ∀ piece ∈ before ++ after, ¬ piece.Names name)
    (hbefore : before.flatMap (·.expanded env) = p ++ ['"']) (hafter : after.flatMap (·.expanded env) = '"' :: q)
    (hplace : s.StandsBetween p q) (hunset : ofText (env.without name) text = .ok c₀)
    (henv : ∀ key, key ≠ String.ofList name → env' key = env key) (hvalue : Spells (env.value name) x)
    (hvalue' : Spells (env'.value name) x') :
    ∃ c c', ofText env text = .ok c ∧ ofText env' text = .ok c' ∧ (∀ s', s' ≠ s → s'.get c' = s'.get c) ∧
      s.kind.Means (String.ofList x) (s.get c) ∧ s.kind.Means (String.ofList x') (s.get c') ∧
      ((∀ ch ∈ env.value name, isPlain ch = true) → x = env.value name) ∧
      ((∀ ch ∈ env'.value name, isPlain ch = true) → x' = env'.value name) := by
  have hcongr {ps : List Piece} (h : ∀ piece ∈ ps, ¬ piece.Names name) :
      ps.flatMap (·.expanded env') = ps.flatMap (·.expanded env) := Environment.flatMap_expanded_congr h henv
  have hunset' : env'.without name = env.without name := by
    funext key
    by_cases hkey : key = String.ofList name
    · rw [Environment.without, Environment.without, if_pos hkey, if_pos hkey]
    · rw [Environment.without_of_ne hkey, Environment.without_of_ne hkey, henv key hkey]
  obtain ⟨v, hmeans, hc⟩ := ofText_eq_of_quoted hs hreads honly hbefore hafter hplace hunset hvalue
  have hbefore' := (hcongr fun piece hp => honly piece (List.mem_append_left _ hp)).trans hbefore
  have hafter' := (hcongr fun piece hp => honly piece (List.mem_append_right _ hp)).trans hafter
  rw [← hunset'] at hunset
  obtain ⟨v', hmeans', hc'⟩ := ofText_eq_of_quoted hs hreads honly hbefore' hafter' hplace hunset hvalue'
  refine ⟨_, _, hc, hc', fun s' hs' => ?_, ?_, ?_, fun hplain => hvalue.unique (spells_self hplain),
    fun hplain => hvalue'.unique (spells_self hplain)⟩
  · rw [Setting.get_set_of_ne hs', Setting.get_set_of_ne hs']
  · rwa [Setting.get_set]
  · rwa [Setting.get_set]

/-- An environment with a path in one variable and an address in another. -/
def located (path : String) : Environment
  | "V" => some path
  | "U" => some "http://v"
  | _ => none

def locatedText : String := "session = [\"memory\", \"$\x7bV\x7d\", 60]\n[vault]\nbase_url = '$\x7bU\x7d'\n"

private def locatedBefore : List Char := "session = [\"memory\", ".toList

private def locatedAfter : List Char := ", 60]\n[vault]\nbase_url = 'http://v'\n".toList

private def piecesAfter : List Piece :=
  [.verbatim "\", 60]\n[vault]\nbase_url = '".toList, .reference ['U'], .verbatim "'\n".toList]

private theorem reads_located :
    Reads locatedText.toList (.verbatim (locatedBefore ++ ['"']) :: .reference ['V'] :: piecesAfter) := by
  have hafter : Reads
      ("\", 60]\n[vault]\nbase_url = '".toList ++ Environment.opening ++ ['U'] ++ '\x7d' :: "'\n".toList)
      piecesAfter := .reference (by decide +kernel) (by decide) (.verbatim (by decide +kernel))
  have htext : locatedText.toList = (locatedBefore ++ ['"']) ++ Environment.opening ++ ['V'] ++ '\x7d' ::
      ("\", 60]\n[vault]\nbase_url = '".toList ++ Environment.opening ++ ['U'] ++ '\x7d' :: "'\n".toList) := by
    decide +kernel
  rw [htext]
  exact .reference (by decide +kernel) (by decide) hafter

private theorem located_place : Setting.databasePath.StandsBetween locatedBefore locatedAfter := by
  have hkey : keyPath (locatedBefore ++ '"' :: '"' :: locatedAfter) =
      some (⟨[], "session"⟩, "= [\"memory\", \"\", 60]\n[vault]\nbase_url = 'http://v'\n".toList) := by decide +kernel
  have hitem : (entry (value (maxDepth - 1)) <* Text.Reader.exactly [','])
      "\"memory\", \"\", 60]\n[vault]\nbase_url = 'http://v'\n".toList =
      some (.text "memory", " \"\", 60]\n[vault]\nbase_url = 'http://v'\n".toList) := rfl
  have hspread : spread " \"\", 60]\n[vault]\nbase_url = 'http://v'\n".toList =
      some ((), '"' :: '"' :: locatedAfter) := by decide +kernel
  have hleads : Leads (locatedBefore ++ '"' :: '"' :: locatedAfter) [] ⟨[], "session"⟩ (.item 1)
      ('"' :: '"' :: locatedAfter) :=
    .intro rfl .here hkey rfl (.item [.text "memory"] (.next hitem .here) hspread)
  exact ⟨by decide +kernel, _, _, _, _, hleads, rfl, .item rfl⟩

/-- The path of sessions as an item of an array, in one of two environments with an escape. -/
theorem quoted_variable_sets_one_setting_located :
    ∃ c c', ofText (located "s.db") locatedText = .ok c ∧ ofText (located "a\\\\b") locatedText = .ok c' ∧
      (∀ s : Setting, s ≠ .databasePath → s.get c' = s.get c) ∧
      c.databasePath = "s.db" ∧ c'.databasePath = "a\\b" := by
  have hunset : ofText ((located "s.db").without ['V']) locatedText =
      .ok { vaultUrl := "http://v", databasePath := "", sessionSeconds := 60 } :=
    eq_ok_of_toOption (by decide +kernel)
  have henv (key : String) (hkey : key ≠ String.ofList ['V']) : located "a\\\\b" key = located "s.db" key := by
    unfold located
    split
    · exact absurd rfl hkey
    all_goals rfl
  have hvalue : Spells ((located "s.db").value ['V']) "s.db".toList :=
    spells_self (List.all_eq_true.1 (by decide +kernel))
  have hvalue' : Spells ((located "a\\\\b").value ['V']) ['a', '\\', 'b'] := .next rfl (.next rfl (.next rfl .here))
  obtain ⟨c, c', hc, hc', hsame, hpath, hpath', -⟩ :=
    @quoted_variable_sets_one_setting .databasePath (located "s.db") (located "a\\\\b") ['V'] _ _
      locatedBefore locatedAfter locatedText [.verbatim (locatedBefore ++ ['"'])] piecesAfter _
      (by decide) reads_located (by simp [Environment.Piece.Names, piecesAfter])
      (by decide +kernel) (by decide +kernel) located_place hunset henv hvalue hvalue'
  exact ⟨c, c', hc, hc', hsame, hpath, hpath'⟩

/-! ### Values that leave the quotation marks -/

/-- An environment in which only this variable has a value. -/
def Environment.only (key v : String) : Environment := fun other => if other = key then some v else none

/-- A document that refers to the variable `V` for the address. -/
def addressed : String := "[vault]\nbase_url = \"$\x7bV\x7d\"\n"

private def addressedBefore : List Char := "[vault]\nbase_url = ".toList

private theorem reads_addressed :
    Reads addressed.toList [.verbatim (addressedBefore ++ ['"']), .reference ['V'], .verbatim ['"', '\n']] := by
  have htext : addressed.toList =
      (addressedBefore ++ ['"']) ++ Environment.opening ++ ['V'] ++ '\x7d' :: ['"', '\n'] := by
    decide +kernel
  rw [htext]
  exact .reference (by decide +kernel) (by decide) (.verbatim (by decide +kernel))

private theorem addressed_place : Setting.vaultUrl.StandsBetween addressedBefore ['\n'] := by
  have hheader : line (addressedBefore ++ ['"', '"', '\n']) =
      some (some (.table ⟨[], "vault"⟩), "base_url = \"\"\n".toList) := rfl
  have hkey : keyPath "base_url = \"\"\n".toList = some (⟨[], "base_url"⟩, ['=', ' ', '"', '"', '\n']) := by
    decide +kernel
  have hleads : Leads (addressedBefore ++ ['"', '"', '\n']) [some (.table ⟨[], "vault"⟩)] ⟨[], "base_url"⟩ .whole
      ['"', '"', '\n'] :=
    .intro rfl (.next hheader .here) hkey rfl .whole
  exact ⟨by decide, _, _, _, _, hleads, rfl, .header rfl rfl⟩

/-- A value can close the quotation marks and set another setting. -/
theorem quoted_variable_sets_others :
    ¬ ∀ (env env' : Environment) (name p q : List Char) (text : String) (before after : List Piece) (s : Setting)
      (c₀ : Config), s ∈ [Setting.botToken, .vaultUrl, .databasePath] →
      Reads text.toList (before ++ .reference name :: after) → (∀ piece ∈ before ++ after, ¬ piece.Names name) →
      before.flatMap (·.expanded env) = p ++ ['"'] → after.flatMap (·.expanded env) = '"' :: q → s.StandsBetween p q →
      ofText (env.without name) text = .ok c₀ → (∀ key, key ≠ String.ofList name → env' key = env key) →
      ∃ c c', ofText env text = .ok c ∧ ofText env' text = .ok c' ∧ (∀ s', s' ≠ s → s'.get c' = s'.get c) ∧
        s.kind.Means (String.ofList (env.value name)) (s.get c) ∧
        s.kind.Means (String.ofList (env'.value name)) (s.get c') := by
  intro h
  let env := Environment.only "V" "http://v"
  let env' := Environment.only "V" "http://v\"\ntimeout_secs = 1 # "
  have hunset : ofText (env.without ['V']) addressed = .ok { vaultUrl := "" } := eq_ok_of_toOption (by decide +kernel)
  have hset : ofText env addressed = .ok { vaultUrl := "http://v" } := eq_ok_of_toOption (by decide +kernel)
  have hset' : ofText env' addressed = .ok { vaultUrl := "http://v", vaultSeconds := 1 } :=
    eq_ok_of_toOption (by decide +kernel)
  have henv (key : String) (hkey : key ≠ String.ofList ['V']) : env' key = env key :=
    (if_neg hkey).trans (if_neg hkey).symm
  obtain ⟨c, c', hc, hc', hsame, -⟩ := h env env' ['V'] addressedBefore ['\n'] addressed
    [.verbatim (addressedBefore ++ ['"'])] [.verbatim ['"', '\n']] .vaultUrl { vaultUrl := "" } (by decide)
    reads_addressed (by simp [Environment.Piece.Names]) (by simp [Piece.expanded]) (by simp [Piece.expanded])
    addressed_place hunset henv
  rw [hset] at hc
  rw [hset'] at hc'
  cases hc
  cases hc'
  have hseconds : 1 = 30 := hsame .vaultSeconds (by decide)
  cases hseconds

end quoted

end Config

end VaultChat
