import VaultChat.Proofs.Conduct

/-!
# What can become of an event

Everything that is asked while an event is handled makes a list of incidents: each request with its answer.
`Answered` lists every way in which an event can be answered, with the incidents that lead there and the reply that
the user gets, whatever the cache and the vault answer (`respond_answered`).
-/

namespace VaultChat

open Chat

namespace Chat.Plan

/-- The step of a dialogue whose plan needs a session that is not to be had.  There is none for plans that need no
session. -/
def rest? (flow : Flow) : Plan → Option Flow
  | .run .beginLogin | .run .beginAddPassword | .run (.addPassword _) => some .idle
  | .answer .listPasswords | .answer (.showPassword _) | .answer (.deletePassword _) | .answer .unmatched => some flow
  | .done _ | .run (.authenticate ..) | .run .logOut | .run (.deleteAccount _) | .answer (.generatePassword _) => none

/-- What a plan that needs a session says about a request that is refused. -/
def rejection? : Plan → Option String
  | .run .beginLogin => some Wording.registrationFailed
  | .run .beginAddPassword | .answer .unmatched => some Wording.unknownCommand
  | .run (.addPassword _) => some Wording.passwordNotAdded
  | .answer .listPasswords | .answer (.showPassword _) => some Wording.listFailed
  | .answer (.deletePassword _) => some Wording.deleteFailed
  | .done _ | .run (.authenticate ..) | .run .logOut | .run (.deleteAccount _) | .answer (.generatePassword _) => none

/-- The call that presents the token of the session, for plans that make one. -/
def call? (token : Token) : Plan → Option Vault.Call
  | .run (.addPassword entry) => some (.addPassword token entry)
  | .answer .listPasswords => some (.listPasswords token)
  | .answer (.showPassword id) => some (.getPassword token id)
  | .answer (.deletePassword id) => some (.deletePassword token id)
  | _ => none

end Chat.Plan

/-- The reply to a call that presented a token and was served. -/
def Vault.Exchange.success? : Vault.Exchange → Option Reply
  | ⟨.addPassword .., .done⟩ => some (.plain Wording.passwordAdded)
  | ⟨.deletePassword .., .done⟩ => some (.plain Wording.passwordDeleted)
  | ⟨.listPasswords _, .entries []⟩ => some (.plain Wording.noPasswords)
  | ⟨.listPasswords _, .entries (entry :: entries)⟩ => some ((entry :: entries).flatMap Engine.renderEntry)
  | ⟨.getPassword .., .entry entry⟩ => some (Engine.renderEntry entry)
  | _ => none

@[simp] theorem Vault.Exchange.success?_failed (call : Call) (f : Failure) :
    success? ⟨call, .failed f⟩ = none := by
  cases call <;> rfl

theorem Chat.Plan.bearer_of_call {plan : Plan} {token : Token} {call : Vault.Call}
    (h : plan.call? token = some call) : call.bearer? = some token := by
  unfold call? at h
  split at h <;> cases h <;> rfl

namespace Engine

variable {α β σ τ : Type}

/-- A request and what was answered to it. -/
inductive Incident where
  | lookedUp (r : Except Error (Option Token))
  | stored (token : Token) (r : Except Error Unit)
  | forgot (r : Except Error Bool)
  | extended (r : Except Error Bool)
  | asked (x : Vault.Exchange)
  | chose (password : String)

/-- The incidents in the course of a procedure, the first one first. -/
def Procedure.incidents (env : Surroundings σ τ) : Procedure α → World σ τ → List Incident
  | .done _, _ => []
  | .lookUp user next, w =>
    let (r, s) := env.cache.session? env.now user w.sessions
    .lookedUp r :: (next r).incidents env { w with sessions := s }
  | .store user token ttl next, w =>
    let (r, s) := env.cache.putSession env.now user token ttl w.sessions
    .stored token r :: (next r).incidents env { w with sessions := s }
  | .forget user next, w =>
    let (r, s) := env.cache.deleteSession env.now user w.sessions
    .forgot r :: (next r).incidents env { w with sessions := s }
  | .extend user ttl next, w =>
    let (r, s) := env.cache.touchSession env.now user ttl w.sessions
    .extended r :: (next r).incidents env { w with sessions := s }
  | .call c next, w =>
    let (r, v) := env.vault.respond c w.vault
    .asked ⟨c, c.outcome r⟩ :: (next r).incidents env { w with vault := v }
  | .choose extra next, w =>
    let c := env.dice w.throws extra
    .chose c.password :: (next c).incidents env { w with throws := w.throws + 1 }

def Incident.exchange? : Incident → Option Vault.Exchange
  | .asked x => some x
  | .lookedUp _ | .stored .. | .forgot _ | .extended _ | .chose _ => none

/-- The exchanges with the vault are those among the incidents. -/
theorem Procedure.exchanges_eq (env : Surroundings σ τ) (p : Procedure α) (w : World σ τ) :
    p.exchanges env w = (p.incidents env w).filterMap Incident.exchange? := by
  induction p generalizing w with
  | done a => rfl
  | call c next ih => exact congrArg (_ :: ·) (ih _ _)
  | lookUp _ _ ih | store _ _ _ _ ih | forget _ _ ih | extend _ _ _ ih | choose _ _ ih => exact ih _ _

/-- The incidents that an event causes. -/
def incidents (settings : Settings) (env : Surroundings σ τ) (user : UserId) (event : Event) (e : Engine σ τ) :
    List Incident :=
  (respond settings user (e.flow user) event).incidents env e.world

/-- Whatever is answered, the incidents and the result satisfy `P`. -/
def Procedure.Meets : Procedure α → (List Incident → α → Prop) → Prop
  | .done a, P => P [] a
  | .lookUp _ next, P => ∀ r, (next r).Meets fun is => P (.lookedUp r :: is)
  | .store _ token _ next, P => ∀ r, (next r).Meets fun is => P (.stored token r :: is)
  | .forget _ next, P => ∀ r, (next r).Meets fun is => P (.forgot r :: is)
  | .extend _ _ next, P => ∀ r, (next r).Meets fun is => P (.extended r :: is)
  | .call c next, P => ∀ r, (next r).Meets fun is => P (.asked ⟨c, c.outcome r⟩ :: is)
  | .choose _ next, P => ∀ c, (next c).Meets fun is => P (.chose c.password :: is)

theorem Procedure.Meets.run {p : Procedure α} {P : List Incident → α → Prop} (h : p.Meets P)
    (env : Surroundings σ τ) (w : World σ τ) : P (p.incidents env w) (p.run env w).1 := by
  induction p generalizing w P with
  | done a => exact h
  | lookUp _ _ ih | store _ _ _ _ ih | forget _ _ ih | extend _ _ _ ih | call _ _ ih | choose _ _ ih =>
    exact ih _ (h _) _

/-! ### The ways to be answered -/

/-- How an event of `user` in the dialogue `flow` with this plan can be answered, and after which incidents. -/
inductive Answered (settings : Settings) (user : UserId) (flow : Flow) (plan : Plan) :
    List Incident → Transition → Prop where
  | done {t} (hp : plan = .done t) : Answered settings user flow plan [] t
  | generated {length extra} {c : Password.Choices extra} (hp : plan = .answer (.generatePassword length))
      (hn : Password.freeCharacters (length.getD settings.defaultLength) = .ok extra) :
      Answered settings user flow plan [.chose c.password] ⟨flow, .hidden c.password⟩
  | ungenerated {length e} (hp : plan = .answer (.generatePassword length))
      (hn : Password.freeCharacters (length.getD settings.defaultLength) = .error e) :
      Answered settings user flow plan [] ⟨flow, failure e Wording.invalidLength⟩
  | unread {e rest rejected} (hp : plan.rest? flow = some rest) (hj : plan.rejection? = some rejected)
      (he : plan = .run .beginLogin → e ≠ .unauthenticated) :
      Answered settings user flow plan [.lookedUp (.error e)] ⟨rest, failure e rejected⟩
  | absent {rest} (hp : plan.rest? flow = some rest) (hl : plan ≠ .run .beginLogin) :
      Answered settings user flow plan [.lookedUp (.ok none)] ⟨rest, .plain Wording.pleaseAuthenticate⟩
  | recognised {token} (hp : plan = .run .beginLogin) :
      Answered settings user flow plan [.lookedUp (.ok (some token))] (.idle (.plain Wording.alreadyAuthenticated))
  | registered {r credentials} (hp : plan = .run .beginLogin) (hr : r = .ok none ∨ r = .error .unauthenticated) :
      Answered settings user flow plan
        [.lookedUp r, .asked ⟨.register user.username, .credentials credentials⟩]
        ⟨.awaitingCredentials,
          [.plain Wording.registered, .hidden (Wording.masterKey credentials.masterKey),
            .hidden (Wording.totpSecret credentials.totpSecret), .plain Wording.credentialsPrompt]⟩
  | known {r} (hp : plan = .run .beginLogin) (hr : r = .ok none ∨ r = .error .unauthenticated) :
      Answered settings user flow plan [.lookedUp r, .asked ⟨.register user.username, .failed .conflict⟩]
        ⟨.awaitingCredentials, [.plain Wording.alreadyRegistered, .plain Wording.credentialsPrompt]⟩
  | unregistered {r f} (hp : plan = .run .beginLogin) (hr : r = .ok none ∨ r = .error .unauthenticated) :
      Answered settings user flow plan [.lookedUp r, .asked ⟨.register user.username, .failed f⟩]
        (.idle (failure (.vault f) Wording.registrationFailed))
  | loggedIn {masterKey code token} (hp : plan = .run (.authenticate masterKey code)) :
      Answered settings user flow plan
        [.asked ⟨.authenticate user.username masterKey code, .token token⟩, .stored token (.ok ())]
        (.idle (.plain Wording.loginOk))
  | unsaved {masterKey code token e} (hp : plan = .run (.authenticate masterKey code)) :
      Answered settings user flow plan
        [.asked ⟨.authenticate user.username masterKey code, .token token⟩, .stored token (.error e)]
        (.idle (.plain Wording.sessionNotSaved))
  | unauthenticated {masterKey code f} (hp : plan = .run (.authenticate masterKey code)) :
      Answered settings user flow plan [.asked ⟨.authenticate user.username masterKey code, .failed f⟩]
        (.idle (failure (.vault f) Wording.loginFailed))
  | prompted {token} (hp : plan = .run .beginAddPassword) :
      Answered settings user flow plan [.lookedUp (.ok (some token))] ⟨.awaitingEntry, .plain Wording.entryPrompt⟩
  | unmatched {token} (hp : plan = .answer .unmatched) :
      Answered settings user flow plan [.lookedUp (.ok (some token))] ⟨flow, .plain Wording.unknownCommand⟩
  | served {token call outcome success rest} (hc : plan.call? token = some call) (hp : plan.rest? flow = some rest)
      (hs : Vault.Exchange.success? ⟨call, outcome⟩ = some success)
      (hr : settings.refresh.appliesTo call.mutates = false) :
      Answered settings user flow plan [.lookedUp (.ok (some token)), .asked ⟨call, outcome⟩] ⟨rest, success⟩
  | renewed {token call outcome success rest b} (hc : plan.call? token = some call)
      (hp : plan.rest? flow = some rest) (hs : Vault.Exchange.success? ⟨call, outcome⟩ = some success)
      (hr : settings.refresh.appliesTo call.mutates = true) :
      Answered settings user flow plan
        [.lookedUp (.ok (some token)), .asked ⟨call, outcome⟩, .extended (.ok b)] ⟨rest, success⟩
  | unrenewed {token call outcome success rest e} (hc : plan.call? token = some call)
      (hp : plan.rest? flow = some rest) (hs : Vault.Exchange.success? ⟨call, outcome⟩ = some success)
      (hr : settings.refresh.appliesTo call.mutates = true) :
      Answered settings user flow plan
        [.lookedUp (.ok (some token)), .asked ⟨call, outcome⟩, .extended (.error e)]
        ⟨rest, success.andPlain Wording.refreshFailed⟩
  | refused {token call rest r} (hc : plan.call? token = some call) (hp : plan.rest? flow = some rest) :
      Answered settings user flow plan
        [.lookedUp (.ok (some token)), .asked ⟨call, .failed .authFailed⟩, .forgot r]
        ⟨rest, .plain Wording.sessionExpired⟩
  | missing {token call rest} (hc : plan.call? token = some call) (hp : plan.rest? flow = some rest)
      (hq : ∃ id, plan = .answer (.showPassword id) ∨ plan = .answer (.deletePassword id)) :
      Answered settings user flow plan [.lookedUp (.ok (some token)), .asked ⟨call, .failed .notFound⟩]
        ⟨rest, .plain Wording.noSuchEntry⟩
  | unserved {token call f rest rejected} (hc : plan.call? token = some call) (hp : plan.rest? flow = some rest)
      (hj : plan.rejection? = some rejected) (hf : f ≠ .authFailed) :
      Answered settings user flow plan [.lookedUp (.ok (some token)), .asked ⟨call, .failed f⟩]
        ⟨rest, failure (.vault f) rejected⟩
  | loggedOut {b} (hp : plan = .run .logOut) :
      Answered settings user flow plan [.forgot (.ok b)]
        (.idle (.plain (if b then Wording.loggedOut else Wording.notLoggedIn)))
  | unforgotten {e} (hp : plan = .run .logOut) :
      Answered settings user flow plan [.forgot (.error e)] (.idle (failure e Wording.notLoggedIn))
  | deleted {code r} (hp : plan = .run (.deleteAccount code)) :
      Answered settings user flow plan [.asked ⟨.deleteAccount user.username code, .done⟩, .forgot r]
        (.idle (.plain Wording.accountDeleted))
  | undeleted {code f} (hp : plan = .run (.deleteAccount code)) :
      Answered settings user flow plan [.asked ⟨.deleteAccount user.username code, .failed f⟩]
        (.idle (failure (.vault f) Wording.accountNotDeleted))

/-! ### Procedures that meet it -/

section

variable {settings : Settings} {user : UserId} {flow rest : Flow} {plan : Plan}

/-- What follows a call that presented a token and was served. -/
private theorem refreshed_meets {token : Token} {success : Reply} (call : Vault.Call) (outcome : Vault.Outcome)
    (hc : plan.call? token = some call) (hp : plan.rest? flow = some rest)
    (hs : Vault.Exchange.success? ⟨call, outcome⟩ = some success) :
    ((refreshed settings user call.mutates success).bind fun r => .done (Transition.mk rest r)).Meets fun is =>
      Answered settings user flow plan (.lookedUp (.ok (some token)) :: .asked ⟨call, outcome⟩ :: is) := by
  unfold refreshed
  by_cases hr : settings.refresh.appliesTo call.mutates = true
  · rw [if_pos hr]
    rintro (e | b)
    · exact .unrenewed hc hp hs hr
    · exact .renewed hc hp hs hr
  · rw [if_neg hr]
    exact .served hc hp hs (eq_false_of_ne_true hr)

/-- What follows a call that presented a token and failed. -/
private theorem bearerFailure_meets {token : Token} {rejected : String} (call : Vault.Call)
    (f : Vault.Failure) (hc : plan.call? token = some call) (hp : plan.rest? flow = some rest)
    (hj : plan.rejection? = some rejected) :
    ((bearerFailure user f rejected).bind fun r => .done (Transition.mk rest r)).Meets fun is =>
      Answered settings user flow plan (.lookedUp (.ok (some token)) :: .asked ⟨call, .failed f⟩ :: is) := by
  cases f with
  | authFailed => exact fun r => .refused hc hp
  | notFound | conflict | rejected _ | transport _ => exact .unserved hc hp hj nofun

private theorem beginLogin_meets :
    (beginLogin user).Meets (Answered settings user flow (.run .beginLogin)) := by
  intro r
  by_cases hr : r = .ok none ∨ r = .error .unauthenticated
  · rcases id hr with rfl | rfl <;>
    · rintro (f | credentials)
      · cases f with
        | conflict => exact .known rfl hr
        | authFailed | notFound | rejected _ | transport _ => exact .unregistered rfl hr
      · exact .registered rfl hr
  · rcases r with e | _ | token
    · have he : e ≠ .unauthenticated := fun he => hr (.inr (by rw [he]))
      have h : Answered settings user flow (.run .beginLogin) [.lookedUp (.error e)]
          (.idle (failure e Wording.registrationFailed)) := .unread rfl rfl fun _ => he
      cases e with
      | unauthenticated => exact absurd rfl he
      | invalidInput _ | vault _ | http | json | database | cache _ | config _ | io => exact h
    · exact absurd (.inl rfl) hr
    · exact .recognised rfl

private theorem authenticate_meets {masterKey : String} {code : Code} :
    (authenticate settings user masterKey code).Meets
      (Answered settings user flow (.run (.authenticate masterKey code))) := by
  rintro (f | token)
  · exact .unauthenticated rfl
  · rintro (e | ⟨⟩)
    · exact .unsaved rfl
    · exact .loggedIn rfl

private theorem beginAddPassword_meets :
    (beginAddPassword user).Meets (Answered settings user flow (.run .beginAddPassword)) := by
  rintro (e | _ | token)
  · exact .unread rfl rfl nofun
  · exact .absent rfl nofun
  · exact .prompted rfl

private theorem addPassword_meets {entry : Vault.NewPassword} :
    ((addPassword settings user entry).bind fun r => .done (.idle r)).Meets
      (Answered settings user flow (.run (.addPassword entry))) := by
  rintro (e | _ | token)
  · exact .unread rfl rfl nofun
  · exact .absent rfl nofun
  · rintro (f | ⟨⟩)
    · exact bearerFailure_meets (.addPassword token entry) f rfl rfl rfl
    · exact refreshed_meets (.addPassword token entry) .done rfl rfl rfl

private theorem logOut_meets :
    ((logOut user).bind fun r => .done (.idle r)).Meets (Answered settings user flow (.run .logOut)) := by
  rintro (e | _ | _)
  · exact .unforgotten rfl
  · exact .loggedOut rfl
  · exact .loggedOut rfl

private theorem deleteAccount_meets {code : Code} :
    ((deleteAccount user code).bind fun r => .done (.idle r)).Meets
      (Answered settings user flow (.run (.deleteAccount code))) := by
  rintro (f | ⟨⟩)
  · exact .undeleted rfl
  · exact fun r => .deleted rfl

private theorem perform_meets (e : Effect) :
    (perform settings user e).Meets (Answered settings user flow (.run e)) := by
  cases e with
  | beginLogin => exact beginLogin_meets
  | authenticate masterKey code => exact authenticate_meets
  | beginAddPassword => exact beginAddPassword_meets
  | addPassword entry => exact addPassword_meets
  | logOut => exact logOut_meets
  | deleteAccount code => exact deleteAccount_meets

private theorem listPasswords_meets :
    ((listPasswords settings user).bind fun r => .done ⟨flow, r⟩).Meets
      (Answered settings user flow (.answer .listPasswords)) := by
  rintro (e | _ | token)
  · exact .unread rfl rfl nofun
  · exact .absent rfl nofun
  · rintro (f | _ | ⟨entry, entries⟩)
    · exact bearerFailure_meets (.listPasswords token) f rfl rfl rfl
    · exact refreshed_meets (.listPasswords token) (.entries []) rfl rfl rfl
    · exact refreshed_meets (.listPasswords token) (.entries (entry :: entries)) rfl rfl rfl

private theorem showPassword_meets {id : Int} :
    ((showPassword settings user id).bind fun r => .done ⟨flow, r⟩).Meets
      (Answered settings user flow (.answer (.showPassword id))) := by
  rintro (e | _ | token)
  · exact .unread rfl rfl nofun
  · exact .absent rfl nofun
  · rintro (f | entry)
    · cases f with
      | notFound => exact .missing rfl rfl ⟨id, .inl rfl⟩
      | authFailed => exact fun r => .refused rfl rfl
      | conflict | rejected _ | transport _ => exact .unserved rfl rfl rfl nofun
    · exact refreshed_meets (.getPassword token id) (.entry entry) rfl rfl rfl

private theorem deletePassword_meets {id : Int} :
    ((deletePassword settings user id).bind fun r => .done ⟨flow, r⟩).Meets
      (Answered settings user flow (.answer (.deletePassword id))) := by
  rintro (e | _ | token)
  · exact .unread rfl rfl nofun
  · exact .absent rfl nofun
  · rintro (f | ⟨⟩)
    · cases f with
      | notFound => exact .missing rfl rfl ⟨id, .inr rfl⟩
      | authFailed => exact fun r => .refused rfl rfl
      | conflict | rejected _ | transport _ => exact .unserved rfl rfl rfl nofun
    · exact refreshed_meets (.deletePassword token id) .done rfl rfl rfl

private theorem generatePassword_meets {length : Option Nat} :
    ((generatePassword (length.getD settings.defaultLength)).bind fun r => .done ⟨flow, r⟩).Meets
      (Answered settings user flow (.answer (.generatePassword length))) := by
  unfold generatePassword
  cases hn : Password.freeCharacters (length.getD settings.defaultLength) with
  | ok extra => exact fun c => .generated rfl hn
  | error e => exact .ungenerated rfl hn

private theorem unmatched_meets :
    ((unmatched user).bind fun r => .done ⟨flow, r⟩).Meets
      (Answered settings user flow (.answer .unmatched)) := by
  rintro (e | _ | token)
  · exact .unread rfl rfl nofun
  · exact .absent rfl nofun
  · exact .unmatched rfl

private theorem reply_meets (q : Query) :
    ((reply settings user q).bind fun r => .done ⟨flow, r⟩).Meets (Answered settings user flow (.answer q)) := by
  cases q with
  | listPasswords => exact listPasswords_meets
  | showPassword id => exact showPassword_meets
  | deletePassword id => exact deletePassword_meets
  | generatePassword length => exact generatePassword_meets
  | unmatched => exact unmatched_meets

end

/-- Every event is answered in one of the ways listed. -/
theorem respond_answered (settings : Settings) (user : UserId) (flow : Flow) (event : Event)
    (env : Surroundings σ τ) (w : World σ τ) :
    Answered settings user flow (plan flow event) ((respond settings user flow event).incidents env w)
      ((respond settings user flow event).run env w).1 := by
  refine Procedure.Meets.run (P := Answered settings user flow (plan flow event)) ?_ env w
  unfold respond
  cases h : plan flow event with
  | done t => exact .done rfl
  | answer q => exact reply_meets q
  | run e => exact perform_meets e

variable {settings : Settings} {user : UserId} {flow : Flow} {plan : Plan}

/-- A plan that presents the token of the session asks the vault once, if there is a session. -/
theorem Answered.exchanges_of_holding {token : Token} {call : Vault.Call} {is : List Incident} {t : Transition}
    (h : Answered settings user flow plan (.lookedUp (.ok (some token)) :: is) t)
    (hc : plan.call? token = some call) : ∃ outcome, is.filterMap Incident.exchange? = [⟨call, outcome⟩] := by
  cases h with
  | recognised hp | registered hp | known hp | unregistered hp | prompted hp | unmatched hp =>
    rw [hp] at hc
    cases hc
  | served hc' | renewed hc' | unrenewed hc' | refused hc' | missing hc' | unserved hc' =>
    obtain rfl := Option.some.inj (hc.symm.trans hc')
    exact ⟨_, rfl⟩

end Engine

end VaultChat
