import VaultChat.Proofs.CommandLine
import VaultChat.Proofs.StoredEntry

/-!
# Logging in with a line

A master key and a code are two words, the second one of digits alone, with any blanks between them and around them
(`parseCredentials_eq_some_iff`).  `authenticate_iff_isCredentials` says that a dialogue that waits for credentials
passes exactly these lines on to the vault, unless they name a command.
-/

namespace VaultChat

open Chat Session Text

namespace Chat

theorem solid_of_digits {cs : List Char} (h : ∀ c ∈ cs, isDigit c = true) : Solid cs := by
  intro c hc
  have hrange := toNat_of_isDigit (h c hc)
  exact not_isBlank_of_mark (by omega)

/-- The text is a master key and a code: a word, blanks, and digits of a value that fits 32 bits.  There may be blanks
at both ends, and zeros in front of the value. -/
inductive IsCredentials (text key : String) (code : Code) : Prop where
  | intro {before between digits after : List Char}
      (joined : text.toList = before ++ key.toList ++ between ++ digits ++ after)
      (before_blank : Blanks before) (between_blank : Blanks between) (after_blank : Blanks after)
      (between_ne : between ≠ []) (key_ne : key ≠ "") (key_solid : Solid key.toList)
      (digits_ne : digits ≠ []) (digits_digits : ∀ c ∈ digits, isDigit c = true)
      (value : digitsValue 0 digits = code) (bound : code ≤ maxUnsigned32)

private theorem parseCode_of_solid {cs : List Char} {code : Code} (h : Solid cs) : parseCode cs = some code ↔
    cs ≠ [] ∧ (∀ c ∈ cs, isDigit c = true) ∧ digitsValue 0 cs = code ∧ code ≤ maxUnsigned32 := by
  have hcode : parseCode (String.ofList cs).toList = some code ↔ IsCode (String.ofList cs) code :=
    parseCode_eq_some_iff
  rwa [IsCode, String.toList_ofList, trim_of_solid h] at hcode

/-- Two words with blanks between them, and perhaps around them. -/
private theorem words_eq_pair_iff {cs first second : List Char} : words cs = [first, second] ↔
    ∃ before between after, cs = before ++ first ++ between ++ second ++ after ∧ Blanks before ∧ Blanks between ∧
      Blanks after ∧ between ≠ [] ∧ first ≠ [] ∧ Solid first ∧ second ≠ [] ∧ Solid second := by
  rw [words_eq_iff]
  constructor
  · intro h
    obtain - | ⟨hbefore, hfirstNe, hfirst, hparted, hrest⟩ := h
    obtain - | ⟨hbetween, hsecondNe, hsecond, -, hend⟩ := hrest
    obtain ⟨hafter⟩ := hend
    refine ⟨_, _, _, by simp only [List.append_assoc], hbefore, hbetween, hafter, ?_, hfirstNe, hfirst, hsecondNe,
      hsecond⟩
    -- Without a blank between them, the two would be one word.
    rintro rfl
    obtain ⟨c, second, rfl⟩ := List.exists_cons_of_ne_nil hsecondNe
    have hblank : isBlank c = true := hparted c rfl
    rw [hsecond c List.mem_cons_self] at hblank
    cases hblank
  · rintro ⟨before, between, after, rfl, hbefore, hbetween, hafter, hbetweenNe, hfirstNe, hfirst, hsecondNe, hsecond⟩
    have hparted : StartsBlank (between ++ second ++ after) := by
      obtain ⟨c, between, rfl⟩ := List.exists_cons_of_ne_nil hbetweenNe
      exact fun d hd => hbetween d (by rw [← Option.some.inj hd]; exact List.mem_cons_self)
    have hend : Spaced [second] (between ++ second ++ after) :=
      .cons hbetween hsecondNe hsecond (startsBlank_of_blanks hafter) (.nil hafter)
    have hall := Spaced.cons hbefore hfirstNe hfirst hparted hend
    simpa only [List.append_assoc] using hall

theorem parseCredentials_eq_some_iff {text key : String} {code : Code} :
    parseCredentials text = some (key, code) ↔ IsCredentials text key code := by
  constructor
  · intro h
    unfold parseCredentials at h
    split at h
    · rename_i word digits hwords
      obtain ⟨before, between, after, hjoined, hbefore, hbetween, hafter, hbetweenNe, hwordNe, hword, hdigitsNe,
        hdigits⟩ := words_eq_pair_iff.1 hwords
      obtain ⟨value, hparse, heq⟩ := Option.map_eq_some_iff.1 h
      obtain ⟨rfl, rfl⟩ := Prod.mk.inj heq
      obtain ⟨-, hall, hvalue, hbound⟩ := (parseCode_of_solid hdigits).1 hparse
      have hkey : (String.ofList word).toList = word := String.toList_ofList
      refine ⟨by rwa [hkey], hbefore, hbetween, hafter, hbetweenNe, ?_, by rwa [hkey], hdigitsNe, hall, hvalue,
        hbound⟩
      rintro hempty
      rw [hempty] at hkey
      exact hwordNe hkey.symm
    · cases h
  · rintro ⟨hjoined, hbefore, hbetween, hafter, hbetweenNe, hkeyNe, hkey, hdigitsNe, hall, hvalue, hbound⟩
    have hdigits := solid_of_digits hall
    have hkeyNe : key.toList ≠ [] := fun hnil => hkeyNe (String.toList_inj.1 hnil)
    have hwords := words_eq_pair_iff.2
      ⟨_, _, _, hjoined, hbefore, hbetween, hafter, hbetweenNe, hkeyNe, hkey, hdigitsNe, hdigits⟩
    have hparse := (parseCode_of_solid hdigits).2 ⟨hdigitsNe, hall, hvalue, hbound⟩
    unfold parseCredentials
    rw [hwords]
    dsimp only
    rw [hparse, Option.map_some, String.ofList_toList]

/-- The lines that a dialogue takes as text are those that name no command. -/
theorem ofLine_line?_eq_some_iff {line text : String} :
    (Event.ofLine line).line? = some text ↔ text = line ∧ ∀ c, ¬ StandsFor line c := by
  constructor
  · intro h
    refine ⟨ofLine_line? h, fun c hc => ?_⟩
    have hknown := hc.ofLine_eq
    obtain ⟨-, -, hnamed, -, -⟩ := hc
    rw [hknown, Command.line?_of_ofName? (Command.ofName?_eq_some_iff.2 hnamed)] at h
    cases h
  · rintro ⟨rfl, hnone⟩
    have hmeans := means_ofLine text
    generalize Event.ofLine text = event at hmeans ⊢
    cases hmeans with
    | text | unknown => rfl
    | known h => exact absurd h (hnone _)

end Chat

namespace Engine

variable {σ τ : Type} {settings : Settings} {env : Surroundings σ τ} {user : UserId} {e : Engine σ τ} {event : Event}

/-- Credentials are passed to the vault once. -/
theorem calls_of_authenticate {masterKey : String} {code : Code}
    (hplan : plan (e.flow user) event = .run (.authenticate masterKey code)) :
    (e.exchanges settings env user event).map Vault.Exchange.call = [.authenticate user.username masterKey code] := by
  have hmeets : (authenticate settings user masterKey code).Meets fun is _ =>
      (is.filterMap Incident.exchange?).map Vault.Exchange.call = [.authenticate user.username masterKey code] := by
    rintro (f | token)
    · rfl
    · rintro (e | ⟨⟩) <;> rfl
  rw [exchanges, Procedure.exchanges_eq, respond, hplan]
  exact hmeets.run env e.world

/-- A dialogue that waits for credentials asks the vault for a token with every line that is a master key and a code
and names no command, once and with the two as they were sent, and with no other line. -/
theorem authenticate_iff_isCredentials (hflow : e.flow user = .awaitingCredentials) :
    (∀ text key code, parseCredentials text = some (key, code) ↔ IsCredentials text key code) ∧
      (∀ text, parseCredentials text = none ↔ ∀ key code, ¬ IsCredentials text key code) ∧
      ∀ line,
        (∀ username key code,
          .authenticate username key code ∈ (e.exchanges settings env user (.ofLine line)).map Vault.Exchange.call ↔
            username = user.username ∧ (∀ c, ¬ StandsFor line c) ∧ IsCredentials line key code) ∧
        ∀ key code, (∀ c, ¬ StandsFor line c) → IsCredentials line key code →
          (e.exchanges settings env user (.ofLine line)).map Vault.Exchange.call =
            [.authenticate user.username key code] := by
  have hcalls {line key : String} {code : Code} (hnone : ∀ c, ¬ StandsFor line c) (h : IsCredentials line key code) :
      (e.exchanges settings env user (.ofLine line)).map Vault.Exchange.call =
        [.authenticate user.username key code] := by
    have hline := ofLine_line?_eq_some_iff.2 ⟨rfl, hnone⟩
    exact calls_of_authenticate (plan_eq_run_iff.2 (.authenticate hflow hline (parseCredentials_eq_some_iff.2 h)))
  refine ⟨fun text key code => parseCredentials_eq_some_iff, fun text => ?_, fun line => ⟨?_, ?_⟩⟩
  · rw [Option.eq_none_iff_forall_ne_some]
    constructor
    · intro h key code hcredentials
      exact h _ (parseCredentials_eq_some_iff.2 hcredentials)
    · rintro h ⟨key, code⟩ hparse
      exact h key code (parseCredentials_eq_some_iff.1 hparse)
  · intro username key code
    constructor
    · intro hmem
      rcases (respond_conduct settings user (e.flow user) (.ofLine line)).call_cases hmem with
        hc | ⟨masterKey, code', hc, hplan⟩ | ⟨_, hc, -⟩ | ⟨_, hb⟩
      · cases hc
      · obtain ⟨rfl, rfl, rfl⟩ := Vault.Call.authenticate.inj hc
        obtain - | - | - | ⟨-, hline, hparse⟩ := plan_eq_run_iff.1 hplan
        obtain ⟨rfl, hnone⟩ := ofLine_line?_eq_some_iff.1 hline
        exact ⟨rfl, hnone, parseCredentials_eq_some_iff.1 hparse⟩
      · cases hc
      · cases hb
    · rintro ⟨rfl, hnone, h⟩
      rw [hcalls hnone h]
      exact List.mem_singleton_self _
  · intro key code hnone h
    exact hcalls hnone h

/-- A master key that starts with a slash, between blanks of several kinds, and the largest code behind zeros. -/
theorem authenticate_iff_isCredentials_slash :
    let settings : Settings := ⟨⟨60⟩, .always, 16⟩
    let env := Surroundings.plain storageCache (.granting ⟨"token"⟩)
    let e : Engine Storage Unit := ⟨.insert ∅ ⟨5⟩ .awaitingCredentials, ⟨.memory ∅, (), 0⟩⟩
    let line := "\u3000/Add+/=\t\u2003 00004294967295\n"
    e.flow ⟨5⟩ = .awaitingCredentials ∧ (∀ c, ¬ StandsFor line c) ∧ IsCredentials line "/Add+/=" 4294967295 ∧
      (e.exchanges settings env ⟨5⟩ (.ofLine line)).map Vault.Exchange.call =
        [.authenticate (UserId.username ⟨5⟩) "/Add+/=" 4294967295] := by
  intro settings env e line
  have hflow : e.flow ⟨5⟩ = .awaitingCredentials := by decide +kernel
  have hline : (Event.ofLine line).line? = some line := by decide +kernel
  have hnone : ∀ c, ¬ StandsFor line c := (ofLine_line?_eq_some_iff.1 hline).2
  have hcredentials : IsCredentials line "/Add+/=" 4294967295 := parseCredentials_eq_some_iff.1 (by decide +kernel)
  exact ⟨hflow, hnone, hcredentials, ((authenticate_iff_isCredentials hflow).2.2 line).2 _ _ hnone hcredentials⟩

end Engine

end VaultChat
