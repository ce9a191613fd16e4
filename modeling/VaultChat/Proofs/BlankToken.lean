import VaultChat.Console.Program
import VaultChat.Proofs.Validated
import VaultChat.Proofs.Words

/-!
# When the token of the bot is refused

A token is looked at twice.  Validation refuses one that is missing or empty, before anything is opened.  The bot
refuses any token without a visible character, and that is after the gateway has been started.  What lies between the
two are the tokens that are made up of blanks: `blank_token_refused_late` says that they, and no others, are refused
late.
-/

namespace VaultChat

open Text (Blanks)

theorem Telegram.checkToken_eq_error_iff {token : String} {f : Telegram.Failure} :
    Telegram.checkToken token = .error f ↔ Blanks token.toList ∧ f = .tokenNotSet := by
  rw [← Text.trim_eq_nil_iff, ← List.isEmpty_iff, Telegram.checkToken]
  split <;> simp [*, eq_comm]

/-- A configuration without a token is refused, if not for want of a vault. -/
theorem Config.validate_of_tokenless {c : Config} (h : c.botToken.getD "" = "") :
    ∃ detail, c.validate .server = .error (.config detail) := by
  unfold validate
  split
  · exact ⟨_, rfl⟩
  · rw [h, if_pos ⟨rfl, rfl⟩]
    exact ⟨_, rfl⟩

theorem Config.exists_token_of_validate {c : Config} (h : c.validate .server = .ok ()) :
    ∃ token, c.botToken = some token ∧ token ≠ "" := by
  obtain ⟨-, htoken, -⟩ := validate_eq_ok_iff.1 h
  cases hc : c.botToken with
  | none =>
    rw [hc] at htoken
    cases htoken rfl
  | some token =>
    rw [hc] at htoken
    refine ⟨token, rfl, ?_⟩
    rintro rfl
    cases htoken rfl

namespace Console

/-! ### How programs end -/

/-- Errors of one line each end a program alike only if they are the same. -/
theorem failed_eq_iff {output output' chain : List String} {message : String} :
    failed output chain = failed output' [message] ↔ output = output' ∧ chain = [message] := by
  constructor
  · intro h
    have houtcome := Progress.ended.inj h
    have herrors : errorLines chain = ["Error: " ++ message] := congrArg Outcome.errors houtcome
    refine ⟨congrArg Outcome.output houtcome, ?_⟩
    rcases chain with _ | ⟨e, _ | ⟨cause, causes⟩⟩
    · cases herrors
    · have he : "Error: " ++ e = "Error: " ++ message := (List.cons.inj herrors).1
      rw [← String.toList_inj, String.toList_append, String.toList_append, List.append_cancel_left_eq,
        String.toList_inj] at he
      rw [he]
    · cases (List.cons.inj herrors).2
  · rintro ⟨rfl, rfl⟩
    rfl

/-- The message about a refused token. -/
def refusal : List String := [Telegram.Failure.tokenNotSet.message]

theorem chain_ne_refusal (fault : ArgumentFault) : fault.chain ≠ refusal := by
  intro h
  cases fault with
  | missingUser => exact absurd h (by decide)
  | invalidUser => cases (List.cons.inj h).2
  | unknownArgument arg =>
    have hmessage : "unknown argument '" ++ arg ++ "' (see --help)" = "Telegram token not set" := (List.cons.inj h).1
    have hhead := congrArg (·.toList.head?) hmessage
    simp at hhead
  | consoleWithoutUser => exact absurd h (by decide)

theorem configFailure_ne_refusal (e : Error) : configFailure e ≠ refusal := by
  intro h
  have hmessage : "Config error: " ++ e.message?.getD "" = "Telegram token not set" := (List.cons.inj h).1
  have hhead := congrArg (·.toList.head?) hmessage
  simp at hhead

theorem failed_ne_refused {output output' chain : List String} (h : chain ≠ refusal) :
    failed output chain ≠ failed output' refusal := fun hfailed => h (failed_eq_iff.1 hfailed).2

/-- The lines of the log by the time that the token is looked at. -/
def launchNotes (c : Config) : List String :=
  [note "Starting pm-gateway...", note s!"Vault: {c.vaultUrl}", backendNote c]

theorem launch_eq_refused_iff {c : Config} {mode : RunMode} {user : Option UserId} {disk : Session.Disk}
    {output : List String} : launch c mode user disk = failed output refusal ↔
      output = launchNotes c ∧ mode = .server ∧ (∃ gateway, Gateway.ofConfig c disk = .ok gateway) ∧
        Blanks (c.botToken.getD "").toList := by
  unfold launch
  cases hgateway : Gateway.ofConfig c disk with
  | error e =>
    have hne : [e.message] ≠ refusal := by
      cases e
      show ["Failed to open session database"] ≠ refusal
      decide
    constructor
    · exact fun h => absurd h (failed_ne_refused hne)
    · rintro ⟨-, -, ⟨gateway, h⟩, -⟩
      cases h
  | ok gateway =>
    cases mode with
    | console =>
      constructor
      · intro h
        cases user with
        | none => exact absurd h (failed_ne_refused (by decide))
        | some user => cases h
      · rintro ⟨-, h, -⟩
        cases h
    | server =>
      dsimp only
      cases hcheck : Telegram.checkToken (c.botToken.getD "") with
      | error f =>
        obtain ⟨hblank, rfl⟩ := Telegram.checkToken_eq_error_iff.1 hcheck
        constructor
        · intro h
          exact ⟨(failed_eq_iff.1 h).1.symm, rfl, ⟨gateway, rfl⟩, hblank⟩
        · rintro ⟨rfl, -⟩
          rfl
      | ok =>
        constructor
        · intro h
          cases h
        · rintro ⟨-, -, -, hblank⟩
          cases hcheck.symm.trans (Telegram.checkToken_eq_error_iff.2 ⟨hblank, rfl⟩)

section start

variable {args : List String} {env : Environment} {file : Option ByteArray} {disk : Session.Disk}
  {user : Option UserId} {c : Config}

theorem start_of_valid {mode : RunMode} (hargs : parseArguments args = .ok (.run mode user))
    (hload : Config.load env file = .ok c) (hvalid : c.validate mode = .ok ()) :
    start args env file disk = launch c mode user disk := by
  simp only [start, hargs, hload, hvalid]

theorem start_of_invalid {mode : RunMode} {e : Error} (hargs : parseArguments args = .ok (.run mode user))
    (hload : Config.load env file = .ok c) (hvalid : c.validate mode = .error e) :
    start args env file disk = failed [] (configFailure e) := by
  simp only [start, hargs, hload, hvalid]

/-- The program is run as a bot, under a configuration that is accepted although its token is made up of blanks, and
its gateway starts. -/
structure MeetsBlankToken (args : List String) (env : Environment) (file : Option ByteArray) (disk : Session.Disk)
    (c : Config) : Prop where
  asked : ∃ user, parseArguments args = .ok (.run .server user)
  loaded : Config.load env file = .ok c
  valid : c.validate .server = .ok ()
  gateway : ∃ gateway, Gateway.ofConfig c disk = .ok gateway
  token : ∃ token, c.botToken = some token ∧ token ≠ "" ∧ Blanks token.toList

theorem start_eq_refused_iff {output : List String} : start args env file disk = failed output refusal ↔
    ∃ c, MeetsBlankToken args env file disk c ∧ output = launchNotes c := by
  constructor
  · intro h
    rcases hargs : parseArguments args with fault | ⟨mode, user⟩ | _ | _
    · rw [start, hargs] at h
      exact absurd h (failed_ne_refused (chain_ne_refusal fault))
    · rcases hload : Config.load env file with e | c
      · rw [start, hargs, hload] at h
        exact absurd h (failed_ne_refused (configFailure_ne_refusal e))
      · rcases hvalid : c.validate mode with e | _
        · rw [start_of_invalid hargs hload hvalid] at h
          exact absurd h (failed_ne_refused (configFailure_ne_refusal e))
        · rw [start_of_valid hargs hload hvalid] at h
          obtain ⟨rfl, rfl, hgateway, hblank⟩ := launch_eq_refused_iff.1 h
          obtain ⟨token, htoken, hne⟩ := Config.exists_token_of_validate hvalid
          rw [htoken] at hblank
          exact ⟨c, ⟨⟨user, hargs⟩, hload, hvalid, hgateway, token, htoken, hne, hblank⟩, rfl⟩
    · rw [start, hargs] at h
      cases congrArg Outcome.status (Progress.ended.inj h)
    · rw [start, hargs] at h
      cases congrArg Outcome.status (Progress.ended.inj h)
  · rintro ⟨c, ⟨⟨user, hargs⟩, hload, hvalid, hgateway, token, htoken, -, hblank⟩, rfl⟩
    rw [start_of_valid hargs hload hvalid]
    exact launch_eq_refused_iff.2 ⟨rfl, rfl, hgateway, by rwa [htoken]⟩

/-- Without a token the bot ends over its configuration, whatever is on the disk. -/
theorem start_of_tokenless (hargs : parseArguments args = .ok (.run .server user))
    (hload : Config.load env file = .ok c) (htoken : c.botToken.getD "" = "") :
    ∃ detail, ∀ disk, start args env file disk = failed [] (configFailure (.config detail)) := by
  obtain ⟨detail, hvalid⟩ := Config.validate_of_tokenless htoken
  exact ⟨detail, fun _ => start_of_invalid hargs hload hvalid⟩

end start

/-- Among the tokens of validated configurations, the bot refuses those that are made up of blanks and no others.  A
token that is missing or empty ends the program over its configuration and before anything is opened.  A token of
blanks ends it over the bot, after the gateway has started, and nothing else does. -/
theorem blank_token_refused_late (args : List String) (env : Environment) (file : Option ByteArray)
    (disk : Session.Disk) (output : List String) (c : Config) :
    (c.validate .server = .ok () → ∃ token, c.botToken = some token ∧ token ≠ "" ∧
      (Telegram.checkToken token = .error .tokenNotSet ↔ Blanks token.toList)) ∧
    (∀ user, parseArguments args = .ok (.run .server user) → Config.load env file = .ok c → c.botToken.getD "" = "" →
      ∃ detail, ∀ disk, start args env file disk = failed [] (configFailure (.config detail))) ∧
    (start args env file disk = failed output refusal ↔
      ∃ c, MeetsBlankToken args env file disk c ∧ output = launchNotes c) := by
  refine ⟨fun hvalid => ?_, fun _ => start_of_tokenless, start_eq_refused_iff⟩
  obtain ⟨token, htoken, hne⟩ := Config.exists_token_of_validate hvalid
  exact ⟨token, htoken, hne, Telegram.checkToken_eq_error_iff.trans (and_iff_left rfl)⟩

/-- A single blank for a token is accepted with the configuration and refused once the gateway has started. -/
theorem blank_token_validates :
    let env : Environment := fun key =>
      if key = "TELEGRAM_BOT_TOKEN" then some " " else if key = "VAULT_BASE_URL" then some "http://v" else none
    let c : Config := { botToken := some " ", vaultUrl := "http://v" }
    Config.load env none = .ok c ∧ c.validate .server = .ok () ∧
      start [] env none .empty = failed (launchNotes c) refusal ∧
      ¬ ∀ (c : Config) (token : String), c.botToken = some token → c.validate .server = .ok () →
        Telegram.checkToken token ≠ .error .tokenNotSet := by
  intro env c
  have hvalid : c.validate .server = .ok () := Config.validate_eq_ok_iff.2 (by decide +kernel)
  refine ⟨rfl, hvalid, rfl, fun h => h c " " rfl hvalid ?_⟩
  exact Telegram.checkToken_eq_error_iff.2 ⟨List.forall_mem_singleton.2 (by decide), rfl⟩

end Console

end VaultChat
