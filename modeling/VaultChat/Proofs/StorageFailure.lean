import VaultChat.Proofs.Incidents
import VaultChat.Proofs.Input
import VaultChat.Session.Storage

/-!
# Failures of the session storage

Every operation of a cache may fail, at any time.  `FailsClosed` says what a failure may and may not do to an event:
where the session cannot be read nothing is asked of the vault, nothing is confirmed that was not stored, and what the
vault has done is reported whatever becomes of the session afterwards.  `handle_failsClosed` says that every event is
handled so, with every cache that fails with the errors of a storage.
-/

namespace VaultChat

open Chat Session

/-! ### Errors of a storage -/

/-- The error comes from a cache, a database or a file. -/
def Error.isStorage : Error → Bool
  | .cache _ | .database | .io => true
  | .invalidInput _ | .unauthenticated | .vault _ | .http | .json | .config _ => false

namespace Session

variable {α σ : Type}

/-- Where the operation fails, it fails with the error of a storage. -/
def FailsAsStorage (op : σ → Except Error α × σ) : Prop := ∀ s e, (op s).1 = .error e → e.isStorage = true

/-- The operations of the cache fail with the errors of a storage only. -/
structure Cache.FailsAsStorage (cache : Cache σ) : Prop where
  get : ∀ now key, Session.FailsAsStorage (cache.get now key)
  set : ∀ now key value ttl, Session.FailsAsStorage (cache.set now key value ttl)
  delete : ∀ now key, Session.FailsAsStorage (cache.delete now key)
  expire : ∀ now key ttl, Session.FailsAsStorage (cache.expire now key ttl)

/-- An operation on the storage fails only where a database on disk has no table. -/
private theorem failsAsStorage_of_onTable {op : Storage → Except Error α × Storage}
    (inTable : Table → Except Error α × Table) (hmemory : ∀ m, ∃ a, (op (.memory m)).1 = .ok a)
    (htable : ∀ t, ∃ a, (op (.table t)).1 = .ok a) (hdisk : ∀ p d, (op (.disk p d)).1 = (d.onTable p inTable).1)
    (hin : ∀ t, ∃ a, (inTable t).1 = .ok a) : FailsAsStorage op := by
  intro s e h
  rcases s with m | t | ⟨p, d⟩
  · obtain ⟨a, ha⟩ := hmemory m
    rw [ha] at h
    cases h
  · obtain ⟨a, ha⟩ := htable t
    rw [ha] at h
    cases h
  · rw [hdisk, Disk.onTable] at h
    split at h
    · rename_i t _
      obtain ⟨a, ha⟩ := hin t
      rw [ha] at h
      cases h
    · cases h
      rfl

theorem storageCache_failsAsStorage : storageCache.FailsAsStorage where
  get now key := failsAsStorage_of_onTable (tableCache.get now key)
    (fun _ => ⟨_, rfl⟩) (fun _ => ⟨_, rfl⟩) (fun _ _ => rfl) fun _ => ⟨_, rfl⟩
  set now key value ttl := failsAsStorage_of_onTable (tableCache.set now key value ttl)
    (fun _ => ⟨_, rfl⟩) (fun _ => ⟨_, rfl⟩) (fun _ _ => rfl) fun _ => ⟨_, rfl⟩
  delete now key := failsAsStorage_of_onTable (tableCache.delete now key)
    (fun _ => ⟨_, rfl⟩) (fun _ => ⟨_, rfl⟩) (fun _ _ => rfl) fun _ => ⟨_, rfl⟩
  expire now key ttl := failsAsStorage_of_onTable (tableCache.expire now key ttl)
    (fun _ => ⟨_, rfl⟩) (fun _ => ⟨_, rfl⟩) (fun _ _ => rfl) fun _ => ⟨_, rfl⟩

/-- An operation that is made to fail, or not. -/
private theorem failsAsStorage_of_fault {fault : Option Error} {op : σ → Except Error α × σ} (h : FailsAsStorage op)
    (hf : ∀ e ∈ fault, e.isStorage = true) :
    FailsAsStorage fun s => match fault with
      | some e => (.error e, s)
      | none => op s := by
  intro s e he
  cases fault with
  | none => exact h s e he
  | some e' =>
    cases he
    exact hf _ rfl

/-- The errors that operations are made to fail with. -/
def Faults.errors (f : Faults) : List Error := [f.get, f.set, f.delete, f.expire].filterMap id

theorem Faults.mem_errors_iff {f : Faults} {e : Error} :
    e ∈ f.errors ↔ f.get = some e ∨ f.set = some e ∨ f.delete = some e ∨ f.expire = some e := by
  simp [errors, eq_comm]

/-- Operations can be made to fail with the errors of a storage. -/
theorem Cache.FailsAsStorage.withFaults {cache : Cache σ} (h : cache.FailsAsStorage) {faults : Faults}
    (hf : ∀ e ∈ faults.errors, e.isStorage = true) : (cache.withFaults faults).FailsAsStorage where
  get now key := failsAsStorage_of_fault (h.get now key) fun e he => hf e (Faults.mem_errors_iff.2 (.inl he))
  set now key value ttl := failsAsStorage_of_fault (h.set now key value ttl) fun e he =>
    hf e (Faults.mem_errors_iff.2 (.inr (.inl he)))
  delete now key := failsAsStorage_of_fault (h.delete now key) fun e he =>
    hf e (Faults.mem_errors_iff.2 (.inr (.inr (.inl he))))
  expire now key ttl := failsAsStorage_of_fault (h.expire now key ttl) fun e he =>
    hf e (Faults.mem_errors_iff.2 (.inr (.inr (.inr he))))

end Session

/-! ### Replies that settle nothing -/

namespace Chat

/-- The reply says something, but neither confirms a login nor reports a failed refresh. -/
structure Reply.Neutral (r : Reply) : Prop where
  ne_nil : r ≠ []
  loginOk_notMem : Message.plain Wording.loginOk ∉ r
  refreshFailed_notMem : Message.plain Wording.refreshFailed ∉ r

namespace Reply

theorem neutral_plain {text : String} (h : text ≠ Wording.loginOk ∧ text ≠ Wording.refreshFailed) :
    (Reply.plain text).Neutral := by
  have htext {other : String} (hm : Message.plain other ∈ Reply.plain text) : text = other :=
    (congrArg Message.text (List.mem_singleton.1 hm)).symm
  exact ⟨nofun, fun hm => h.1 (htext hm), fun hm => h.2 (htext hm)⟩

theorem neutral_hidden (text : String) : (Reply.hidden text).Neutral :=
  have hplain {other : String} (hm : Message.plain other ∈ Reply.hidden text) : False :=
    Bool.false_ne_true (congrArg Message.sensitive (List.mem_singleton.1 hm))
  ⟨nofun, hplain, hplain⟩

theorem Neutral.append {r r' : Reply} (h : r.Neutral) (h' : r'.Neutral) : Reply.Neutral (r ++ r') where
  ne_nil := List.append_ne_nil_of_left_ne_nil h.ne_nil r'
  loginOk_notMem hm := (List.mem_append.1 hm).elim h.loginOk_notMem h'.loginOk_notMem
  refreshFailed_notMem hm := (List.mem_append.1 hm).elim h.refreshFailed_notMem h'.refreshFailed_notMem

/-- The header of an entry starts with a sign that no notice starts with. -/
private theorem head_entryHeader (entry : Vault.PasswordEntry) :
    (Wording.entryHeader entry).toList.head? = some '#' := by
  have hsign : (toString "#").toList.head? = some '#' := rfl
  simp [Wording.entryHeader, hsign]

theorem neutral_renderEntry (entry : Vault.PasswordEntry) : (Engine.renderEntry entry).Neutral := by
  refine Neutral.append (neutral_plain ⟨?_, ?_⟩) (neutral_hidden entry.password) <;>
  · intro h
    have hhead := head_entryHeader entry
    rw [h] at hhead
    exact absurd hhead (by decide +kernel)

theorem neutral_flatMap_renderEntry (entry : Vault.PasswordEntry) (entries : List Vault.PasswordEntry) :
    Reply.Neutral ((entry :: entries).flatMap Engine.renderEntry) := by
  induction entries generalizing entry with
  | nil => simpa using neutral_renderEntry entry
  | cons next entries ih =>
    rw [List.flatMap_cons]
    exact (neutral_renderEntry entry).append (ih next)

end Reply

theorem neutral_of_planText {flow : Flow} {text : String} {t : Transition} (h : planText flow text = .done t) :
    t.reply.Neutral := by
  unfold planText at h
  cases flow with
  | idle => cases h
  | awaitingCredentials | awaitingEntry | confirmingReset | awaitingCode =>
    dsimp only [Plan.stay] at h
    split at h <;> cases h <;> exact Reply.neutral_plain (by decide +kernel)

/-- What is said at once settles nothing. -/
theorem neutral_of_plan {flow : Flow} {event : Event} {t : Transition} (h : plan flow event = .done t) :
    t.reply.Neutral := by
  cases hl : event.line? with
  | some text =>
    rw [plan_of_line hl] at h
    exact neutral_of_planText h
  | none =>
    rcases event with c | text
    · cases c with
      | unknown => cases hl
      | start | add | logOut | list => cases h
      | resetForever | help =>
        cases h
        exact Reply.neutral_plain (by decide +kernel)
      | cancel | showEntry | deleteEntry =>
        dsimp only [plan, planCommand, Plan.stay] at h
        split at h <;> cases h <;> exact Reply.neutral_plain (by decide +kernel)
      | generate =>
        dsimp only [plan, planCommand, Plan.stay] at h
        split at h
        · cases h
        · split at h <;> cases h
          exact Reply.neutral_plain (by decide +kernel)
    · cases hl

end Chat

namespace Engine

theorem failure_of_isStorage {e : Error} (h : e.isStorage = true) (rejected : String) :
    failure e rejected = .plain Wording.storageUnavailable := by
  cases e <;> first | rfl | cases h

theorem neutral_failure (e : Error) {rejected : String} (h : (Reply.plain rejected).Neutral) :
    (failure e rejected).Neutral := by
  have hlogin : (Reply.plain Wording.pleaseAuthenticate).Neutral := Reply.neutral_plain (by decide +kernel)
  have hvault : (Reply.plain Wording.vaultUnavailable).Neutral := Reply.neutral_plain (by decide +kernel)
  have hstorage : (Reply.plain Wording.storageUnavailable).Neutral := Reply.neutral_plain (by decide +kernel)
  cases e with
  | invalidInput | config => exact h
  | unauthenticated => exact hlogin
  | http | json | database | cache | io => exact hstorage
  | vault f =>
    cases f with
    | transport => exact hvault
    | authFailed | notFound | conflict | rejected => exact h

/-! ### Events that need a session -/

/-- The event needs a session in the dialogue `flow`, and `rest` is the step of the dialogue where there is none. -/
inductive NeedsSession (flow : Flow) (event : Event) : (rest : Flow) → Prop where
  | start (h : event = .command .start) : NeedsSession flow event .idle
  | add (h : event = .command .add) : NeedsSession flow event .idle
  | entry {text : String} {entry : Vault.NewPassword} (hf : flow = .awaitingEntry) (hl : event.line? = some text)
      (he : IsEntry text entry) : NeedsSession flow event .idle
  | list (h : event = .command .list) : NeedsSession flow event flow
  | showEntry {arg : String} {id : Int} (h : event = .command (.showEntry arg)) (hi : IsId arg id) :
      NeedsSession flow event flow
  | deleteEntry {arg : String} {id : Int} (h : event = .command (.deleteEntry arg)) (hi : IsId arg id) :
      NeedsSession flow event flow
  | unmatched {text : String} (hf : flow = .idle) (hl : event.line? = some text) : NeedsSession flow event flow

theorem needsSession_iff {flow rest : Flow} {event : Event} :
    NeedsSession flow event rest ↔ (plan flow event).rest? flow = some rest := by
  constructor
  · intro h
    cases h with
    | start h => rw [plan_eq_run_iff.2 (.beginLogin h)]; rfl
    | add h => rw [plan_eq_run_iff.2 (.beginAddPassword h)]; rfl
    | entry hf hl he => rw [plan_eq_run_iff.2 (.addPassword hf hl (parseEntry_eq_some_iff.2 he))]; rfl
    | list h => rw [plan_eq_answer_iff.2 (.listPasswords h)]; rfl
    | showEntry h hi => rw [plan_eq_answer_iff.2 (.showPassword h (parseId_eq_some_iff.2 hi))]; rfl
    | deleteEntry h hi => rw [plan_eq_answer_iff.2 (.deletePassword h (parseId_eq_some_iff.2 hi))]; rfl
    | unmatched hf hl => rw [plan_eq_answer_iff.2 (.unmatched hf hl)]; rfl
  · intro h
    cases hp : plan flow event with
    | done t => rw [hp] at h; cases h
    | run e =>
      rw [hp] at h
      cases plan_eq_run_iff.1 hp with
      | beginLogin he => cases h; exact .start he
      | beginAddPassword he => cases h; exact .add he
      | addPassword hf hl he => cases h; exact .entry hf hl (parseEntry_eq_some_iff.1 he)
      | logOut | authenticate | deleteAccount => cases h
    | answer q =>
      rw [hp] at h
      cases plan_eq_answer_iff.1 hp with
      | listPasswords he => cases h; exact .list he
      | showPassword he hi => cases h; exact .showEntry he (parseId_eq_some_iff.1 hi)
      | deletePassword he hi => cases h; exact .deleteEntry he (parseId_eq_some_iff.1 hi)
      | unmatched hf hl => cases h; exact .unmatched hf hl
      | generateDefault | generatePassword => cases h

/-! ### Incidents and the reply -/

section

variable {settings : Settings} {user : UserId} {flow : Flow} {event : Event} {plan : Plan} {is : List Incident}
  {t : Transition}

namespace Answered

theorem lookUp_iff (h : Answered settings user flow plan is t) :
    (∃ r, .lookedUp r ∈ is) ↔ ∃ rest, plan.rest? flow = some rest := by
  cases h with
  | done hp | generated hp | ungenerated hp | loggedIn hp | unsaved hp | unauthenticated hp | loggedOut hp
  | unforgotten hp | deleted hp | undeleted hp => simp [hp, Plan.rest?]
  | recognised hp | registered hp | known hp | unregistered hp | prompted hp | unmatched hp => simp [hp, Plan.rest?]
  | unread hp | absent hp | served _ hp | renewed _ hp | unrenewed _ hp | refused _ hp | missing _ hp
  | unserved _ hp => simp [hp]

theorem of_lookUp_failed (h : Answered settings user flow plan is t) {e : Error} (he : e.isStorage = true)
    (hm : .lookedUp (.error e) ∈ is) :
    is = [.lookedUp (.error e)] ∧ t.reply = .plain Wording.storageUnavailable ∧ plan.rest? flow = some t.next := by
  cases h with
  | unread hp =>
    obtain rfl : _ = _ := by simpa using hm
    exact ⟨rfl, failure_of_isStorage he _, hp⟩
  | registered _ hr | known _ hr | unregistered _ hr =>
    -- A registration goes on after one error, which comes from no storage.
    rcases hr with rfl | rfl
    · simp at hm
    · obtain rfl : _ = _ := by simpa using hm
      cases he
  | _ => simp at hm

theorem of_store_failed (h : Answered settings user flow plan is t) {token : Token} {e : Error}
    (hm : .stored token (.error e) ∈ is) : t.reply = .plain Wording.sessionNotSaved := by
  cases h with
  | unsaved => rfl
  | _ => simp at hm

/-- What a call that presented a token and was served achieved is always told. -/
theorem of_served (h : Answered settings user flow plan is t) {x : Vault.Exchange} {success : Reply}
    (hx : .asked x ∈ is) (hs : x.success? = some success) :
    t.reply = success ∧ (∀ e, .extended (.error e) ∉ is) ∨
      t.reply = success.andPlain Wording.refreshFailed ∧ ∃ e, .extended (.error e) ∈ is := by
  cases h with
  | served _ _ hs' | renewed _ _ hs' | unrenewed _ _ hs' =>
    obtain rfl : x = _ := by simpa using hx
    obtain rfl := Option.some.inj (hs.symm.trans hs')
    simp
  | registered | loggedIn | unsaved | deleted =>
    -- Served, but without a token.
    obtain rfl : x = _ := by simpa using hx
    cases hs
  | known | unregistered | unauthenticated | refused | missing | unserved | undeleted =>
    obtain rfl : x = _ := by simpa using hx
    rw [Vault.Exchange.success?_failed] at hs
    cases hs
  | _ => simp at hx

theorem of_extended (h : Answered settings user flow plan is t) {r : Except Error Bool} (hm : .extended r ∈ is) :
    ∃ x success, .asked x ∈ is ∧ x.success? = some success := by
  cases h with
  | renewed _ _ hs | unrenewed _ _ hs => exact ⟨_, _, by simp, hs⟩
  | _ => simp at hm

theorem of_deleted (h : Answered settings user flow plan is t) {code : Code}
    (hm : .asked ⟨.deleteAccount user.username code, .done⟩ ∈ is) :
    (∃ r, .forgot r ∈ is) ∧ t.reply = .plain Wording.accountDeleted := by
  cases h with
  | @deleted _ r => exact ⟨⟨r, by simp⟩, rfl⟩
  | served _ _ hs | renewed _ _ hs | unrenewed _ _ hs =>
    obtain ⟨rfl, rfl⟩ : _ = _ ∧ _ = _ := by simpa using hm
    cases hs
  | _ => simp at hm

theorem of_refused (h : Answered settings user flow plan is t) {call : Vault.Call} {token : Token}
    (hb : call.bearer? = some token) (hm : .asked ⟨call, .failed .authFailed⟩ ∈ is) :
    (∃ r, .forgot r ∈ is) ∧ t.reply = .plain Wording.sessionExpired := by
  cases h with
  | @refused _ _ _ r => exact ⟨⟨r, by simp⟩, rfl⟩
  | served _ _ hs | renewed _ _ hs | unrenewed _ _ hs =>
    obtain ⟨rfl, rfl⟩ : _ = _ ∧ _ = _ := by simpa using hm
    simp at hs
  | unregistered | unauthenticated | undeleted =>
    obtain ⟨rfl, -⟩ : _ = _ ∧ _ = _ := by simpa using hm
    cases hb
  | unserved _ _ _ hf =>
    obtain ⟨-, rfl⟩ : _ = _ ∧ _ = _ := by simpa using hm
    exact absurd rfl hf
  | _ => simp at hm

theorem of_forgot (h : Answered settings user flow plan is t) {r : Except Error Bool} (hm : .forgot r ∈ is) :
    plan = .run .logOut ∨ (∃ code, .asked ⟨.deleteAccount user.username code, .done⟩ ∈ is) ∨
      ∃ call token, call.bearer? = some token ∧ .asked ⟨call, .failed .authFailed⟩ ∈ is := by
  cases h with
  | loggedOut hp | unforgotten hp => exact .inl hp
  | @deleted code => exact .inr (.inl ⟨code, by simp⟩)
  | @refused token call _ _ hc => exact .inr (.inr ⟨call, token, Plan.bearer_of_call hc, by simp⟩)
  | _ => simp at hm

theorem of_logOut (h : Answered settings user flow (.run .logOut) is t) :
    ∃ r, is = [.forgot r] ∧ ∀ e, r = .error e → e.isStorage = true → t.reply = .plain Wording.storageUnavailable := by
  cases h with
  | loggedOut => exact ⟨_, rfl, nofun⟩
  | unforgotten =>
    refine ⟨_, rfl, fun e he hs => ?_⟩
    cases he
    exact failure_of_isStorage hs _
  | done hp | generated hp | ungenerated hp | unread hp | absent hp | recognised hp | registered hp | known hp
  | unregistered hp | loggedIn hp | unsaved hp | unauthenticated hp | prompted hp | unmatched hp | served hp
  | renewed hp | unrenewed hp | refused hp | missing hp | unserved hp | deleted hp | undeleted hp => cases hp

private theorem neutral_of_rejection {rejected : String} (h : plan.rejection? = some rejected) :
    (Reply.plain rejected).Neutral := by
  unfold Plan.rejection? at h
  split at h <;> cases h <;> exact Reply.neutral_plain (by decide +kernel)

/-- The reply to a served call settles nothing by itself. -/
theorem neutral_of_success {x : Vault.Exchange} {success : Reply} (h : x.success? = some success) :
    success.Neutral := by
  unfold Vault.Exchange.success? at h
  split at h <;> cases h
  · exact Reply.neutral_plain (by decide +kernel)
  · exact Reply.neutral_plain (by decide +kernel)
  · exact Reply.neutral_plain (by decide +kernel)
  · exact Reply.neutral_flatMap_renderEntry _ _
  · exact Reply.neutral_renderEntry _

/-- A reply settles nothing but for the one that confirms a login and those that report a failed refresh. -/
theorem reply_cases (h : Answered settings user flow (Chat.plan flow event) is t) :
    t.reply.Neutral ∨
      (t.reply = .plain Wording.loginOk ∧ ∃ masterKey code token,
        is = [.asked ⟨.authenticate user.username masterKey code, .token token⟩, .stored token (.ok ())]) ∨
      ∃ success : Reply, success.Neutral ∧ t.reply = success.andPlain Wording.refreshFailed ∧
        ∃ e, .extended (.error e) ∈ is := by
  cases h with
  | done hp => exact .inl (neutral_of_plan hp)
  | generated => exact .inl (Reply.neutral_hidden _)
  | ungenerated => exact .inl (neutral_failure _ (Reply.neutral_plain (by decide +kernel)))
  | unread _ hj => exact .inl (neutral_failure _ (neutral_of_rejection hj))
  | unserved _ _ hj => exact .inl (neutral_failure _ (neutral_of_rejection hj))
  | registered =>
    exact .inl (.append (Reply.neutral_plain (by decide +kernel)) (.append (Reply.neutral_hidden _)
      (.append (Reply.neutral_hidden _) (Reply.neutral_plain (by decide +kernel)))))
  | known => exact .inl (.append (Reply.neutral_plain (by decide +kernel)) (Reply.neutral_plain (by decide +kernel)))
  | unregistered | unauthenticated | unforgotten | undeleted =>
    exact .inl (neutral_failure _ (Reply.neutral_plain (by decide +kernel)))
  | loggedIn => exact .inr (.inl ⟨rfl, _, _, _, rfl⟩)
  | served _ _ hs | renewed _ _ hs => exact .inl (neutral_of_success hs)
  | @unrenewed _ _ _ _ _ e _ _ hs => exact .inr (.inr ⟨_, neutral_of_success hs, rfl, e, by simp⟩)
  | loggedOut => split <;> exact .inl (Reply.neutral_plain (by decide +kernel))
  | absent | recognised | unsaved | prompted | unmatched | refused | missing | deleted =>
    exact .inl (Reply.neutral_plain (by decide +kernel))

end Answered

end

/-! ### Every event -/

section

variable {α : Type} {settings : Settings} {env : Surroundings σ τ}

/-- The error of a result, where it is one. -/
def fault? : Except Error α → Option Error
  | .error e => some e
  | .ok _ => none

theorem fault?_eq_some_iff {r : Except Error α} {e : Error} : fault? r = some e ↔ r = .error e := by
  cases r <;> simp [fault?]

/-- The error that a request to the cache was answered with. -/
def Incident.fault? : Incident → Option Error
  | .lookedUp r => Engine.fault? r
  | .stored _ r => Engine.fault? r
  | .forgot r | .extended r => Engine.fault? r
  | .asked _ | .chose _ => none

private theorem isStorage_of_fault {op : σ → Except Error α × σ} (h : FailsAsStorage op) {s : σ} {e : Error}
    (he : fault? (op s).1 = some e) : e.isStorage = true :=
  h s e (fault?_eq_some_iff.1 he)

private theorem session?_failsAsStorage {cache : Cache σ} (h : cache.FailsAsStorage) (now : Instant) (user : UserId) :
    FailsAsStorage (cache.session? now user) := by
  intro s e he
  change (cache.get now user.sessionKey s).1.map _ = _ at he
  cases hr : (cache.get now user.sessionKey s).1 with
  | ok value => rw [hr] at he; cases he
  | error e' =>
    rw [hr] at he
    cases he
    exact h.get _ _ _ _ hr

theorem Procedure.isStorage_of_incidents (h : env.cache.FailsAsStorage) {p : Procedure α} {w : World σ τ}
    {i : Incident} (hi : i ∈ p.incidents env w) {e : Error} (he : i.fault? = some e) : e.isStorage = true := by
  induction p generalizing w with
  | done a => cases hi
  | lookUp user next ih =>
    rcases List.mem_cons.1 hi with rfl | hi
    · exact isStorage_of_fault (session?_failsAsStorage h env.now user) he
    · exact ih _ hi
  | store user token ttl next ih =>
    rcases List.mem_cons.1 hi with rfl | hi
    · exact isStorage_of_fault (h.set env.now user.sessionKey token.text ttl) he
    · exact ih _ hi
  | forget user next ih =>
    rcases List.mem_cons.1 hi with rfl | hi
    · exact isStorage_of_fault (h.delete env.now user.sessionKey) he
    · exact ih _ hi
  | extend user ttl next ih =>
    rcases List.mem_cons.1 hi with rfl | hi
    · exact isStorage_of_fault (h.expire env.now user.sessionKey ttl) he
    · exact ih _ hi
  | call c next ih | choose extra next ih =>
    rcases List.mem_cons.1 hi with rfl | hi
    · cases he
    · exact ih _ hi

/-- How an event of `user` in the dialogue `flow` is handled when operations of the cache may fail: `is` is what was
asked and answered, `reply` what the user is told, and `next` the step that the dialogue is left at. -/
structure FailsClosed (user : UserId) (flow : Flow) (event : Event) (is : List Incident) (reply : Reply)
    (next : Flow) : Prop where
  /-- The session is looked up for the events that need one, and for no others. -/
  lookUp : (∃ r, .lookedUp r ∈ is) ↔ ∃ rest, NeedsSession flow event rest
  /-- Where it cannot be read, that is the end: nothing is asked of the vault. -/
  unread : ∀ err, .lookedUp (.error err) ∈ is → is = [.lookedUp (.error err)] ∧
    reply = .plain Wording.storageUnavailable ∧ ∀ rest, NeedsSession flow event rest → next = rest
  /-- A login is confirmed only after the vault has issued a token and the token was stored. -/
  confirmed : Message.plain Wording.loginOk ∈ reply → ∃ masterKey code token,
    is = [.asked ⟨.authenticate user.username masterKey code, .token token⟩, .stored token (.ok ())]
  unsaved : ∀ token err, .stored token (.error err) ∈ is → reply = .plain Wording.sessionNotSaved
  /-- What a served call achieved is told in full, with one notice at the end if the session could not be extended. -/
  served : ∀ x success, .asked x ∈ is → x.success? = some success → Message.plain Wording.refreshFailed ∉ success ∧
    (reply = success ∧ (∀ err, .extended (.error err) ∉ is) ∨
      reply = success.andPlain Wording.refreshFailed ∧ ∃ err, .extended (.error err) ∈ is)
  /-- The session is extended after served calls only. -/
  extended : ∀ r, .extended r ∈ is → ∃ x success, .asked x ∈ is ∧ x.success? = some success
  loggedOut : event = .command .logOut →
    ∃ r, is = [.forgot r] ∧ ∀ err, r = .error err → reply = .plain Wording.storageUnavailable
  /-- Whether the session of a deleted account can be removed makes no difference. -/
  deleted : ∀ code, .asked ⟨.deleteAccount user.username code, .done⟩ ∈ is →
    (∃ r, .forgot r ∈ is) ∧ reply = .plain Wording.accountDeleted
  /-- Nor does it for a token that the vault refuses. -/
  refused : ∀ call token, call.bearer? = some token → .asked ⟨call, .failed .authFailed⟩ ∈ is →
    (∃ r, .forgot r ∈ is) ∧ reply = .plain Wording.sessionExpired
  /-- In no other case is a session removed. -/
  forgot : ∀ r, .forgot r ∈ is → event = .command .logOut ∨
    (∃ code, .asked ⟨.deleteAccount user.username code, .done⟩ ∈ is) ∨
    ∃ call token, call.bearer? = some token ∧ .asked ⟨call, .failed .authFailed⟩ ∈ is
  answered : reply ≠ []

/-- Every event is handled so, in every dialogue and whatever the vault answers. -/
theorem handle_failsClosed (settings : Settings) (hcache : env.cache.FailsAsStorage) (user : UserId) (event : Event)
    (e : Engine σ τ) :
    FailsClosed user (e.flow user) event (e.incidents settings env user event) (e.handle settings env user event).1
      ((e.handle settings env user event).2.flow user) := by
  have hanswer := respond_answered settings user (e.flow user) event env e.world
  have hstorage {i : Incident} (hi : i ∈ e.incidents settings env user event) {err : Error}
      (he : i.fault? = some err) : err.isStorage = true := Procedure.isStorage_of_incidents hcache hi he
  rw [flow_handle, if_pos rfl]
  change FailsClosed _ _ _ _ ((respond settings user (e.flow user) event).run env e.world).1.reply _
  change Answered _ _ _ _ (e.incidents settings env user event) _ at hanswer
  constructor
  case lookUp => simpa only [needsSession_iff] using hanswer.lookUp_iff
  case unread =>
    intro err hm
    obtain ⟨his, hreply, hrest⟩ := hanswer.of_lookUp_failed (hstorage hm rfl) hm
    refine ⟨his, hreply, fun rest hneeds => ?_⟩
    exact Option.some.inj (hrest.symm.trans (needsSession_iff.1 hneeds))
  case confirmed =>
    intro hm
    rcases hanswer.reply_cases with hneutral | ⟨-, hlogin⟩ | ⟨success, hneutral, hreply, -⟩
    · exact absurd hm hneutral.loginOk_notMem
    · exact hlogin
    · -- What comes after the reply to a served call is another notice.
      rw [hreply] at hm
      rcases List.mem_append.1 hm with hm | hm
      · exact absurd hm hneutral.loginOk_notMem
      · exact absurd (List.mem_singleton.1 hm) (by decide +kernel)
  case unsaved => exact fun _ _ hm => hanswer.of_store_failed hm
  case served =>
    intro x success hx hs
    exact ⟨(Answered.neutral_of_success hs).refreshFailed_notMem, hanswer.of_served hx hs⟩
  case extended => exact fun _ hm => hanswer.of_extended hm
  case loggedOut =>
    rintro rfl
    obtain ⟨r, his, hreply⟩ := hanswer.of_logOut
    refine ⟨r, his, fun err hr => hreply err hr (hstorage (i := .forgot r) ?_ (fault?_eq_some_iff.2 hr))⟩
    rw [his]
    exact List.mem_singleton_self _
  case deleted => exact fun _ hm => hanswer.of_deleted hm
  case refused => exact fun _ _ hb hm => hanswer.of_refused hb hm
  case forgot =>
    intro r hm
    refine (hanswer.of_forgot hm).imp_left fun hplan => ?_
    cases plan_eq_run_iff.1 hplan with
    | logOut he => exact he
  case answered =>
    rcases hanswer.reply_cases with hneutral | ⟨hreply, -⟩ | ⟨success, -, hreply, -⟩
    · exact hneutral.ne_nil
    · rw [hreply]
      exact List.cons_ne_nil _ _
    · rw [hreply]
      exact List.append_ne_nil_of_right_ne_nil _ (List.cons_ne_nil _ _)

end

/-- A list is asked for, once with a cache that cannot be read and once with one that extends no session. -/
theorem handle_failsClosed_listing :
    let settings : Settings := ⟨⟨60⟩, .always, 16⟩
    let e : Engine Storage Unit :=
      .start ⟨.memory (.insert ∅ (UserId.sessionKey ⟨5⟩) ⟨"token", .latest⟩), (), 0⟩
    let vault := Vault.Service.granting ⟨"token"⟩
    let unreadable := Surroundings.plain (storageCache.withFaults ⟨some .database, none, none, none⟩) vault
    let unextending := Surroundings.plain (storageCache.withFaults ⟨none, none, none, some .io⟩) vault
    unreadable.cache.FailsAsStorage ∧ unextending.cache.FailsAsStorage ∧
      (e.handle settings unreadable ⟨5⟩ (.command .list)).1 = .plain Wording.storageUnavailable ∧
      (e.handle settings unextending ⟨5⟩ (.command .list)).1 =
        [.plain Wording.noPasswords, .plain Wording.refreshFailed] := by
  intro settings e vault unreadable unextending
  have hunreadable : (storageCache.withFaults ⟨some .database, none, none, none⟩).FailsAsStorage :=
    storageCache_failsAsStorage.withFaults (by decide)
  have hunextending : (storageCache.withFaults ⟨none, none, none, some .io⟩).FailsAsStorage :=
    storageCache_failsAsStorage.withFaults (by decide)
  have hread : .lookedUp (.error .database) ∈ e.incidents settings unreadable ⟨5⟩ (.command .list) := .head _
  have hserved : .asked ⟨.listPasswords ⟨"token"⟩, .entries []⟩ ∈
      e.incidents settings unextending ⟨5⟩ (.command .list) := .tail _ (.head _)
  have hextended : .extended (.error .io) ∈ e.incidents settings unextending ⟨5⟩ (.command .list) :=
    .tail _ (.tail _ (.head _))
  refine ⟨hunreadable, hunextending, ((handle_failsClosed settings hunreadable ⟨5⟩ _ e).unread _ hread).2.1, ?_⟩
  rcases ((handle_failsClosed settings hunextending ⟨5⟩ _ e).served _ _ hserved rfl).2 with ⟨-, hnone⟩ | ⟨hreply, -⟩
  · exact absurd hextended (hnone _)
  · exact hreply

end Engine

end VaultChat
