import VaultChat.Proofs.Course
import VaultChat.Proofs.Plan

/-!
# The conduct of an event

What handling an event may ask of its surroundings, in which order.  `Conduct` has one rule for every request, and a
stage that says what was learnt before it: a token is presented only right after it was looked up, a token that the
vault issues is stored, a token that it refuses is forgotten, and after any other answer nothing more is asked.
`respond_conduct` says that every event is handled by these rules.
-/

namespace VaultChat

open Chat

/-- The call changes what is stored at the vault. -/
def Vault.Call.mutates : Vault.Call → Bool
  | .addPassword .. | .deletePassword .. => true
  | _ => false

namespace Engine

variable {σ τ : Type}

/-- What was learnt so far. -/
inductive Stage where
  /-- Nothing has been asked. -/
  | fresh
  /-- There is no session. -/
  | absent
  /-- The session holds this token. -/
  | holding (token : Token)
  /-- The vault has issued this token. -/
  | issued (token : Token)
  /-- The vault has served a call that presents the token. -/
  | served (mutating : Bool)
  /-- The session is at an end and has yet to be removed. -/
  | ending
  /-- Nothing more is asked. -/
  | over

namespace Stage

/-- Where an event starts.  To log out is to end the session. -/
def ofEvent (event : Event) : Stage := if event = .command .logOut then .ending else .fresh

def ofLookUp : Except Error (Option Token) → Stage
  | .ok (some token) => .holding token
  | .ok none | .error .unauthenticated => .absent
  | .error _ => .over

def ofIssue : Except Vault.Failure Token → Stage
  | .ok token => .issued token
  | .error _ => .over

/-- After a call that presents a token. -/
def ofService (c : Vault.Call) : c.Answer → Stage
  | .ok _ => .served c.mutates
  | .error .authFailed => .ending
  | .error _ => .over

def ofDeletion : Except Vault.Failure Unit → Stage
  | .ok () => .ending
  | .error _ => .over

/-- No request is due. -/
def mayStop (settings : Settings) : Stage → Bool
  | .issued _ | .ending => false
  | .served mutating => !settings.refresh.appliesTo mutating
  | .fresh | .absent | .holding _ | .over => true

end Stage

/-- What may be asked from a stage on when `user` has sent `event` in the dialogue `flow`. -/
inductive Conduct (settings : Settings) (user : UserId) (flow : Flow) (event : Event) :
    Stage → Procedure Transition → Prop where
  | done {stage : Stage} {t : Transition} (h : stage.mayStop settings = true) :
      Conduct settings user flow event stage (.done t)
  | lookUp {next} (h : ∀ r, Conduct settings user flow event (.ofLookUp r) (next r)) :
      Conduct settings user flow event .fresh (.lookUp user next)
  | register {next} (h : ∀ r, Conduct settings user flow event .over (next r)) :
      Conduct settings user flow event .absent (.call (.register user.username) next)
  | authenticate {masterKey code next} (hplan : plan flow event = .run (.authenticate masterKey code))
      (h : ∀ r, Conduct settings user flow event (.ofIssue r) (next r)) :
      Conduct settings user flow event .fresh (.call (.authenticate user.username masterKey code) next)
  | present {token} {c : Vault.Call} {next} (hc : c.bearer? = some token)
      (h : ∀ r, Conduct settings user flow event (.ofService c r) (next r)) :
      Conduct settings user flow event (.holding token) (.call c next)
  | deleteAccount {code next} (hplan : plan flow event = .run (.deleteAccount code))
      (h : ∀ r, Conduct settings user flow event (.ofDeletion r) (next r)) :
      Conduct settings user flow event .fresh (.call (.deleteAccount user.username code) next)
  | store {token next} (h : ∀ r, Conduct settings user flow event .over (next r)) :
      Conduct settings user flow event (.issued token) (.store user token settings.sessionTtl next)
  | extend {mutating next} (hr : settings.refresh.appliesTo mutating = true)
      (h : ∀ r, Conduct settings user flow event .over (next r)) :
      Conduct settings user flow event (.served mutating) (.extend user settings.sessionTtl next)
  | forget {next} (h : ∀ r, Conduct settings user flow event .over (next r)) :
      Conduct settings user flow event .ending (.forget user next)
  | choose {extra : Nat} (hg : event.generates = true) :
      Conduct settings user flow event .fresh (.choose extra fun c => .done ⟨flow, .hidden c.password⟩)

variable {settings : Settings} {user : UserId} {flow : Flow} {event : Event}

/-! ### Parts of a response -/

private theorem conduct_lookUp {next : Except Error (Option Token) → Procedure Transition}
    (hok : ∀ token, Conduct settings user flow event (.holding token) (next (.ok (some token))))
    (hnone : ∀ r, r = .ok none ∨ r = .error .unauthenticated → Conduct settings user flow event .absent (next r))
    (herror : ∀ e, ∃ t, next (.error e) = .done t ∨ e = .unauthenticated) :
    Conduct settings user flow event .fresh (.lookUp user next) := by
  refine .lookUp fun r => ?_
  rcases r with e | _ | token
  · by_cases he : e = .unauthenticated
    · subst he
      exact hnone _ (.inr rfl)
    · obtain ⟨t, ht | ht⟩ := herror e
      · have hs : Stage.ofLookUp (.error e) = .over := by
          cases e <;> first | rfl | exact absurd rfl he
        rw [hs, ht]
        exact .done rfl
      · exact absurd ht he
  · exact hnone _ (.inl rfl)
  · exact hok token

/-- Nothing more is asked where a session is missing or cannot be read. -/
private theorem conduct_lookUp_stop {next : Except Error (Option Token) → Procedure Transition}
    (hok : ∀ token, Conduct settings user flow event (.holding token) (next (.ok (some token))))
    (hnone : ∃ t, next (.ok none) = .done t) (herror : ∀ e, ∃ t, next (.error e) = .done t) :
    Conduct settings user flow event .fresh (.lookUp user next) := by
  refine conduct_lookUp hok ?_ fun e => ?_
  · rintro r (rfl | rfl)
    · obtain ⟨t, ht⟩ := hnone
      rw [ht]
      exact .done rfl
    · obtain ⟨t, ht⟩ := herror .unauthenticated
      rw [ht]
      exact .done rfl
  · obtain ⟨t, ht⟩ := herror e
    exact ⟨t, .inl ht⟩

private theorem conduct_refreshed (mutating : Bool) (reply : Reply) (f : Reply → Transition) :
    Conduct settings user flow event (.served mutating)
      ((refreshed settings user mutating reply).bind fun r => .done (f r)) := by
  unfold refreshed
  by_cases h : settings.refresh.appliesTo mutating = true
  · rw [if_pos h]
    refine .extend h fun r => ?_
    rcases r with e | b <;> exact .done rfl
  · rw [if_neg h]
    exact .done (by simpa [Stage.mayStop] using h)

private theorem conduct_bearerFailure {c : Vault.Call} (e : Vault.Failure) (rejected : String)
    (f : Reply → Transition) :
    Conduct settings user flow event (.ofService c (.error e))
      ((bearerFailure user e rejected).bind fun r => .done (f r)) := by
  cases e with
  | authFailed => exact .forget fun r => .done rfl
  | notFound | conflict | rejected _ | transport _ => exact .done rfl

/-! ### Responses -/

private theorem conduct_listPasswords (f : Reply → Transition) :
    Conduct settings user flow event .fresh ((listPasswords settings user).bind fun r => .done (f r)) := by
  refine conduct_lookUp_stop (fun token => .present rfl fun r => ?_) ⟨_, rfl⟩ fun e => ⟨_, rfl⟩
  rcases r with e | _ | ⟨entry, entries⟩
  · exact conduct_bearerFailure e _ f
  · exact conduct_refreshed false _ f
  · exact conduct_refreshed false _ f

private theorem conduct_showPassword (id : Int) (f : Reply → Transition) :
    Conduct settings user flow event .fresh ((showPassword settings user id).bind fun r => .done (f r)) := by
  refine conduct_lookUp_stop (fun token => .present rfl fun r => ?_) ⟨_, rfl⟩ fun e => ⟨_, rfl⟩
  rcases r with e | entry
  · cases e with
    | notFound => exact .done rfl
    | authFailed | conflict | rejected _ | transport _ => exact conduct_bearerFailure _ Wording.listFailed f
  · exact conduct_refreshed false _ f

private theorem conduct_deletePassword (id : Int) (f : Reply → Transition) :
    Conduct settings user flow event .fresh ((deletePassword settings user id).bind fun r => .done (f r)) := by
  refine conduct_lookUp_stop (fun token => .present rfl fun r => ?_) ⟨_, rfl⟩ fun e => ⟨_, rfl⟩
  rcases r with e | ⟨⟩
  · cases e with
    | notFound => exact .done rfl
    | authFailed | conflict | rejected _ | transport _ => exact conduct_bearerFailure _ Wording.deleteFailed f
  · exact conduct_refreshed true _ f

private theorem conduct_addPassword (entry : Vault.NewPassword) (f : Reply → Transition) :
    Conduct settings user flow event .fresh ((addPassword settings user entry).bind fun r => .done (f r)) := by
  refine conduct_lookUp_stop (fun token => .present rfl fun r => ?_) ⟨_, rfl⟩ fun e => ⟨_, rfl⟩
  rcases r with e | ⟨⟩
  · exact conduct_bearerFailure e _ f
  · exact conduct_refreshed true _ f

private theorem conduct_beginLogin : Conduct settings user flow event .fresh (beginLogin user) := by
  refine conduct_lookUp (fun token => .done rfl) ?_ fun e => ?_
  · rintro r (rfl | rfl) <;>
    · refine .register fun r => ?_
      rcases r with e | credentials
      · cases e <;> exact .done rfl
      · exact .done rfl
  · by_cases he : e = .unauthenticated
    · exact ⟨.idle [], .inr he⟩
    · refine ⟨.idle (failure e Wording.registrationFailed), .inl ?_⟩
      cases e <;> first | rfl | exact absurd rfl he

private theorem conduct_authenticate {masterKey : String} {code : Code}
    (h : plan flow event = .run (.authenticate masterKey code)) :
    Conduct settings user flow event .fresh (authenticate settings user masterKey code) := by
  refine .authenticate h fun r => ?_
  rcases r with e | token
  · exact .done rfl
  · refine .store fun r => ?_
    rcases r with e | ⟨⟩ <;> exact .done rfl

private theorem conduct_deleteAccount {code : Code} (h : plan flow event = .run (.deleteAccount code))
    (f : Reply → Transition) :
    Conduct settings user flow event .fresh ((deleteAccount user code).bind fun r => .done (f r)) := by
  refine .deleteAccount h fun r => ?_
  rcases r with e | ⟨⟩
  · exact .done rfl
  · exact .forget fun r => .done rfl

private theorem conduct_logOut (f : Reply → Transition) :
    Conduct settings user flow event .ending ((logOut user).bind fun r => .done (f r)) := by
  refine .forget fun r => ?_
  rcases r with e | _ | _ <;> exact .done rfl

private theorem conduct_reply {q : Query} (h : plan flow event = .answer q) :
    Conduct settings user flow event .fresh ((reply settings user q).bind fun r => .done ⟨flow, r⟩) := by
  cases q with
  | listPasswords => exact conduct_listPasswords _
  | showPassword id => exact conduct_showPassword id _
  | deletePassword id => exact conduct_deletePassword id _
  | generatePassword length =>
    simp only [reply, generatePassword]
    cases Password.freeCharacters (length.getD settings.defaultLength) with
    | ok extra => exact .choose (generates_of_plan h)
    | error e => exact .done rfl
  | unmatched => exact conduct_lookUp_stop (fun token => .done rfl) ⟨_, rfl⟩ fun e => ⟨_, rfl⟩

private theorem conduct_perform {e : Effect} (h : plan flow event = .run e) (hl : event ≠ .command .logOut) :
    Conduct settings user flow event .fresh (perform settings user e) := by
  cases e with
  | beginLogin => exact conduct_beginLogin
  | beginAddPassword => exact conduct_lookUp_stop (fun token => .done rfl) ⟨_, rfl⟩ fun e => ⟨_, rfl⟩
  | logOut =>
    cases plan_eq_run_iff.1 h with
    | logOut he => exact absurd he hl
  | authenticate masterKey code => exact conduct_authenticate h
  | addPassword entry => exact conduct_addPassword entry _
  | deleteAccount code => exact conduct_deleteAccount h _

/-- Every event is handled by the rules. -/
theorem respond_conduct (settings : Settings) (user : UserId) (flow : Flow) (event : Event) :
    Conduct settings user flow event (.ofEvent event) (respond settings user flow event) := by
  by_cases he : event = .command .logOut
  · subst he
    exact conduct_logOut _
  · rw [Stage.ofEvent, if_neg he]
    unfold respond
    cases h : plan flow event with
    | done t => exact .done rfl
    | answer q => exact conduct_reply h
    | run e => exact conduct_perform h he

/-- What an event may call: an account of the sender's own is registered, entered or deleted, the latter two as
planned, or a token is presented. -/
theorem Conduct.call_cases {stage : Stage} {p : Procedure Transition} (h : Conduct settings user flow event stage p)
    {env : Surroundings σ τ} {w : World σ τ} {c : Vault.Call}
    (hmem : c ∈ (p.exchanges env w).map Vault.Exchange.call) :
    c = .register user.username ∨
      (∃ masterKey code, c = .authenticate user.username masterKey code ∧
        plan flow event = .run (.authenticate masterKey code)) ∨
      (∃ code, c = .deleteAccount user.username code ∧ plan flow event = .run (.deleteAccount code)) ∨
      ∃ token, c.bearer? = some token := by
  induction h generalizing w with
  | done | choose => cases hmem
  | lookUp _ ih | store _ ih | extend _ _ ih | forget _ ih => exact ih _ hmem
  | register _ ih =>
    rcases List.mem_cons.1 hmem with rfl | hmem
    · exact .inl rfl
    · exact ih _ hmem
  | @authenticate masterKey code _ hplan _ ih =>
    rcases List.mem_cons.1 hmem with rfl | hmem
    · exact .inr (.inl ⟨masterKey, code, rfl, hplan⟩)
    · exact ih _ hmem
  | @deleteAccount code _ hplan _ ih =>
    rcases List.mem_cons.1 hmem with rfl | hmem
    · exact .inr (.inr (.inl ⟨code, rfl, hplan⟩))
    · exact ih _ hmem
  | @present token _ _ hb _ ih =>
    rcases List.mem_cons.1 hmem with rfl | hmem
    · exact .inr (.inr (.inr ⟨token, hb⟩))
    · exact ih _ hmem

end Engine

end VaultChat
