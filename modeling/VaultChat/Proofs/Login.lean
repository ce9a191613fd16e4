import Mathlib.Data.List.Induction
import VaultChat.Proofs.Episode
import VaultChat.Proofs.NextStep

/-!
# Logging in

Nobody who is asked for credentials has a live session: the request for them is only made where no session was found,
and nothing but credentials makes a session.  Hence a login never displaces a live session, and every live session can
be traced back to one authentication, since which it has been live without a break (`login_displaces_nothing`).
-/

namespace VaultChat

namespace Session

/-- The live token of a user, where the storage can be read. -/
def Storage.token? (now : Instant) (user : UserId) (s : Storage) : Option Token :=
  match (storageCache.session? now user s).1 with
  | .ok token => token
  | .error _ => none

theorem Storage.token?_eq (now : Instant) (user : UserId) (s : Storage) :
    s.token? now user = ((s.cell user.sessionKey).live now).map Token.mk := by
  rw [token?, session?_cell]
  cases s.cell user.sessionKey <;> rfl

end Session

namespace Engine

open Chat Session

variable {σ τ : Type}

/-! ### Storing tokens -/

/-- A token that is stored for a user, and the sessions as they are before. -/
structure Storing (σ : Type) where
  user : UserId
  token : Token
  sessions : σ

/-- What is stored in the course of a procedure. -/
def Procedure.stores {α : Type} (env : Surroundings σ τ) : Procedure α → World σ τ → List (Storing σ)
  | .done _, _ => []
  | .lookUp user next, w =>
    let (r, s) := env.cache.session? env.now user w.sessions
    (next r).stores env { w with sessions := s }
  | .store user token ttl next, w =>
    let (r, s) := env.cache.putSession env.now user token ttl w.sessions
    ⟨user, token, w.sessions⟩ :: (next r).stores env { w with sessions := s }
  | .forget user next, w =>
    let (r, s) := env.cache.deleteSession env.now user w.sessions
    (next r).stores env { w with sessions := s }
  | .extend user ttl next, w =>
    let (r, s) := env.cache.touchSession env.now user ttl w.sessions
    (next r).stores env { w with sessions := s }
  | .call c next, w =>
    let (r, v) := env.vault.respond c w.vault
    (next r).stores env { w with vault := v }
  | .choose extra next, w =>
    (next (env.dice w.throws extra)).stores env { w with throws := w.throws + 1 }

section

variable {settings : Settings} {user : UserId} {flow : Flow} {event : Event}

/-- A token may be stored from this stage on. -/
def Stage.mayStore : Stage → Bool
  | .fresh | .issued _ => true
  | .absent | .holding _ | .served _ | .ending | .over => false

private theorem mayStore_ofLookUp (r : Except Error (Option Token)) : (Stage.ofLookUp r).mayStore = false := by
  rcases r with e | _ | token
  · cases e <;> rfl
  · rfl
  · rfl

private theorem mayStore_ofService (c : Vault.Call) (r : c.Answer) : (Stage.ofService c r).mayStore = false := by
  rcases r with f | a
  · cases f <;> rfl
  · rfl

private theorem mayStore_ofDeletion (r : Except Vault.Failure Unit) : (Stage.ofDeletion r).mayStore = false := by
  rcases r with f | ⟨⟩ <;> rfl

theorem Conduct.stores_eq_nil {stage : Stage} {p : Procedure Transition} (env : Surroundings σ τ) (w : World σ τ)
    (h : Conduct settings user flow event stage p) (hs : stage.mayStore = false) : p.stores env w = [] := by
  induction h generalizing w with
  | done => rfl
  | lookUp | authenticate | deleteAccount | store | choose => cases hs
  | register _ ih | extend _ _ ih | forget _ ih => exact ih _ _ rfl
  | present _ _ ih => exact ih _ _ (mayStore_ofService _ _)

/-- Only a token that was just issued is stored, for its user, with the sessions as the event found them. -/
theorem Conduct.of_mem_stores {stage : Stage} {p : Procedure Transition} {env : Surroundings σ τ} {w : World σ τ}
    {x : Storing σ} (h : Conduct settings user flow event stage p) (hx : x ∈ p.stores env w) :
    x.user = user ∧ x.sessions = w.sessions ∧ (stage = .issued x.token ∨ stage = .fresh ∧ ∃ masterKey code,
      ⟨.authenticate user.username masterKey code, .token x.token⟩ ∈ p.exchanges env w) := by
  have none_of : ∀ {stage p w}, Conduct settings user flow event stage p → stage.mayStore = false →
      x ∉ p.stores env w := fun h hs hx => by
    rw [h.stores_eq_nil env _ hs] at hx
    cases hx
  induction h generalizing w with
  | done | choose => cases hx
  | store h _ =>
    rcases List.mem_cons.1 hx with rfl | hx
    · exact ⟨rfl, rfl, .inl rfl⟩
    · exact absurd hx (none_of (h _) rfl)
  | @authenticate masterKey code next _ h ih =>
    obtain ⟨huser, hsessions, hstage⟩ := ih _ hx
    refine ⟨huser, hsessions, .inr ⟨rfl, masterKey, code, ?_⟩⟩
    show _ ∈ _ :: _
    cases hr : (env.vault.respond (.authenticate user.username masterKey code) w.vault).1 with
    | error f =>
      rw [hr] at hstage
      rcases hstage with hs | ⟨hs, -⟩ <;> cases hs
    | ok token =>
      rw [hr] at hstage
      obtain hs | ⟨hs, -⟩ := hstage
      · cases hs
        exact List.mem_cons_self
      · cases hs
  | lookUp h _ => exact (none_of (h _) (mayStore_ofLookUp _) hx).elim
  | deleteAccount _ h _ => exact (none_of (h _) (mayStore_ofDeletion _) hx).elim
  | present _ h _ => exact (none_of (h _) (mayStore_ofService _ _) hx).elim
  | register h _ | extend _ h _ | forget h _ => exact (none_of (h _) (Eq.refl false) hx).elim

/-! ### The step that waits for credentials -/

theorem plan_next?_awaitingCredentials (h : (plan flow event).next? flow = some .awaitingCredentials) :
    flow = .awaitingCredentials := by
  cases hl : event.line? with
  | some text =>
    rw [plan_of_line hl] at h
    cases flow <;> simp only [planText, Plan.stay] at h <;> (try split at h) <;> simp_all [Plan.next?]
  | none =>
    rcases event with c | t
    · cases c <;> simp only [plan, planCommand, Plan.stay] at h <;> (repeat' split at h) <;>
        simp_all [Plan.next?, Event.line?]
    · cases hl

/-- Credentials are waited for where they were waited for before, or once a login was begun. -/
theorem of_respond_next_eq {env : Surroundings σ τ} {w : World σ τ}
    (h : ((respond settings user flow event).run env w).1.next = .awaitingCredentials) :
    flow = .awaitingCredentials ∨ plan flow event = .run .beginLogin := by
  rcases respond_next settings env user flow event w with hnext | ⟨e, he, hmem⟩
  · rw [h] at hnext
    exact .inl (plan_next?_awaitingCredentials hnext)
  · rw [h] at hmem
    cases e <;> simp [Effect.targets] at hmem
    exact .inr he

/-- To begin a login with a live session is to end the dialogue. -/
theorem beginLogin_of_live {env : Surroundings Storage τ} (hcache : env.cache = storageCache) {w : World Storage τ}
    {v : String} (hl : (w.sessions.cell user.sessionKey).live env.now = some v) :
    ((beginLogin user).run env w).1.next = .idle := by
  have hlook : (storageCache.session? env.now user w.sessions).1 = .ok (some ⟨v⟩) := by
    rw [session?_cell, hl]
    cases hc : w.sessions.cell user.sessionKey with
    | memory | row => rfl
    | closed =>
      rw [hc] at hl
      cases hl
  have htoken : ((liveToken user).run env w).1 = .ok ⟨v⟩ := by
    rw [liveToken, Procedure.run_bind]
    simp only [Procedure.session, Procedure.run, hcache, hlook]
    rfl
  rw [beginLogin, Procedure.run_bind, htoken]
  rfl

/-- What is live after an event was live before, or was issued by it. -/
theorem Episode.live_cases {now : Instant} {c c' : Cell} {es : List Vault.Exchange}
    (h : Episode settings now user flow event c es c') {v : String} (hl : c'.live now = some v) :
    c.live now = some v ∨ ∃ masterKey code,
      es = [⟨.authenticate user.username masterKey code, .token ⟨v⟩⟩] := by
  cases h with
  | silent | unauthenticated | undeleted => exact .inl hl
  | lookedUp | registered | unserved =>
    rw [Cell.live_get (Int.le_refl _)] at hl
    exact .inl hl
  | loggedOut | deleted | refused =>
    rw [Cell.delete, Cell.live_clear] at hl
    cases hl
  | @authenticated masterKey code token =>
    obtain ⟨rfl, -⟩ := Cell.live_filled hl
    exact .inr ⟨masterKey, code, rfl⟩
  | served =>
    left
    split at hl
    · obtain ⟨hl, -⟩ := Cell.live_expire (Int.le_refl _) hl
      rw [Cell.live_get (Int.le_refl _)] at hl
      exact hl
    · rw [Cell.live_get (Int.le_refl _)] at hl
      exact hl

/-- An account is registered for the sender of the event only, and only where there is no live session. -/
theorem Episode.of_register_mem {now : Instant} {c c' : Cell} {es : List Vault.Exchange}
    (h : Episode settings now user flow event c es c') {username : String} {outcome : Vault.Outcome}
    (hmem : ⟨.register username, outcome⟩ ∈ es) : username = user.username ∧ c.live now = none := by
  cases h with
  | silent | lookedUp | loggedOut => cases hmem
  | registered _ hl =>
    cases List.mem_singleton.1 hmem
    exact ⟨rfl, hl⟩
  | authenticated | unauthenticated | deleted | undeleted => cases List.mem_singleton.1 hmem
  | served _ _ hb | refused _ _ hb | unserved _ _ hb =>
    cases List.mem_singleton.1 hmem
    cases hb

end

/-! ### Courses -/

/-- The live token of a user. -/
def Moment.token? (m : Moment Storage τ) (user : UserId) : Option Token :=
  m.engine.world.sessions.token? m.now user

/-- What is stored when an event is handled. -/
def Moment.stores (settings : Settings) (env : Surroundings σ τ) (m : Moment σ τ) (user : UserId) (event : Event) :
    List (Storing σ) :=
  (respond settings user (m.engine.flow user) event).stores (env.at m.now) m.engine.world

/-- Nobody who is asked for credentials has a live session. -/
def Moment.Apart (m : Moment Storage τ) : Prop :=
  ∀ user, m.engine.flow user = .awaitingCredentials → m.token? user = none

namespace Moment

variable {settings : Settings} {env : Surroundings Storage τ} {m : Moment Storage τ} {user : UserId} {event : Event}

theorem token?_eq (m : Moment Storage τ) (user : UserId) :
    m.token? user = ((m.engine.world.sessions.cell user.sessionKey).live m.now).map Token.mk :=
  m.engine.world.sessions.token?_eq m.now user

theorem token?_eq_none_iff :
    m.token? user = none ↔ (m.engine.world.sessions.cell user.sessionKey).live m.now = none := by
  rw [token?_eq, Option.map_eq_none_iff]

theorem token?_eq_some_iff {token : Token} : m.token? user = some token ↔
    (m.engine.world.sessions.cell user.sessionKey).live m.now = some token.text := by
  rw [token?_eq]
  cases (m.engine.world.sessions.cell user.sessionKey).live m.now with
  | none => exact ⟨nofun, nofun⟩
  | some v =>
    cases token
    simp

/-- A token that is live after something has happened was live before, or it was issued by it. -/
theorem token?_next (henv : env.cache = storageCache) {e : Happening} {token : Token}
    (h : (m.next settings env e).token? user = some token) : m.token? user = some token ∨
      ∃ event masterKey code, e = .event user event ∧ (m.handled settings env user event).exchanges =
        [⟨.authenticate user.username masterKey code, .token token⟩] := by
  rw [token?_eq_some_iff] at h ⊢
  cases e with
  | wait span => exact .inl (Cell.live_of_le (Instant.le_advance m.now span) h)
  | event sender event =>
    obtain ⟨hown, hothers⟩ := m.handled_episode henv settings sender event
    by_cases hu : user = sender
    · subst hu
      exact (hown.live_cases h).imp_right fun ⟨masterKey, code, hes⟩ => ⟨event, masterKey, code, rfl, hes⟩
    · rw [hothers _ (UserId.sessionKey_ne hu)] at h
      exact .inl h

/-- The account of a user is entered only with credentials that were waited for, and then the dialogue ends. -/
theorem of_authenticate_mem {username masterKey : String} {code : Code} {outcome : Vault.Outcome}
    (h : ⟨.authenticate username masterKey code, outcome⟩ ∈ (m.handled settings env user event).exchanges) :
    username = user.username ∧ m.engine.flow user = .awaitingCredentials ∧
      (m.next settings env (.event user event)).engine.flow user = .idle := by
  have hmem := List.mem_map_of_mem (f := Vault.Exchange.call) h
  rcases (respond_conduct settings user (m.engine.flow user) event).call_cases hmem with
    hc | ⟨_, _, hc, hplan⟩ | ⟨_, hc, -⟩ | ⟨_, hb⟩
  · cases hc
  · cases hc
    refine ⟨rfl, ?_, ?_⟩
    · cases plan_eq_run_iff.1 hplan with
      | authenticate hf => exact hf
    · show (Engine.handle ..).2.flow user = _
      rw [flow_handle, if_pos rfl]
      rcases respond_next settings (env.at m.now) user (m.engine.flow user) event m.engine.world with
        hnext | ⟨e, he, hmem⟩
      · rw [hplan] at hnext
        cases hnext
      · rw [hplan] at he
        cases he
        exact List.mem_singleton.1 hmem
  · cases hc
  · cases hb

/-- Whatever happens, nobody who is asked for credentials has a live session. -/
theorem Apart.next (henv : env.cache = storageCache) (h : m.Apart) (e : Happening) :
    (m.next settings env e).Apart := by
  intro user hnext
  refine Option.eq_none_iff_forall_ne_some.2 fun token hlive => ?_
  rcases token?_next henv hlive with hbefore | ⟨event, masterKey, code, rfl, hes⟩
  · -- The session was there before, so that nothing began to wait for credentials.
    have hflow : m.engine.flow user ≠ .awaitingCredentials := fun hf => by
      rw [h user hf] at hbefore
      cases hbefore
    cases e with
    | wait span => exact hflow hnext
    | event sender event =>
      by_cases hu : user = sender
      · subst hu
        have hrun := flow_handle settings (env.at m.now) user user event m.engine
        rw [if_pos rfl] at hrun
        have hnext := hrun.symm.trans hnext
        have hplan := (of_respond_next_eq hnext).resolve_left hflow
        have hrespond : respond settings user (m.engine.flow user) event = beginLogin user := by
          rw [respond, hplan]
          rfl
        rw [hrespond] at hnext
        have hidle := @beginLogin_of_live τ user (env.at m.now) henv _ token.text (token?_eq_some_iff.1 hbefore)
        rw [hidle] at hnext
        cases hnext
      · rw [flow_next_of_ne settings env m hu] at hnext
        exact hflow hnext
  · -- A token was issued, so that the dialogue has ended.
    obtain ⟨-, -, hidle⟩ := of_authenticate_mem (by rw [hes]; exact List.mem_singleton_self _)
    rw [hidle] at hnext
    cases hnext

theorem apart_after (henv : env.cache = storageCache) (start : Instant) {w : World Storage τ}
    (course : List Happening) : (after settings env ⟨start, .start w⟩ course).Apart := by
  refine induction (fun _ m => m.Apart) ?_ (fun _ _ e h => h.next henv e) course
  intro user h
  have hidle : Flow.idle = .awaitingCredentials := h
  cases hidle

/-! ### Where sessions come from -/

/-- Event `n` of the course got the user this token, and with it the session has been live ever since. -/
structure LiveSince (settings : Settings) (env : Surroundings Storage τ) (m : Moment Storage τ)
    (course : List Happening) (user : UserId) (token : Token) (n : Nat) : Prop where
  issued : ∃ event masterKey code, course[n]? = some (.event user event) ∧
    ((m.after settings env (course.take n)).handled settings env user event).exchanges =
      [⟨.authenticate user.username masterKey code, .token token⟩]
  live : ∀ k, n < k → k ≤ course.length → (m.after settings env (course.take k)).token? user = some token

theorem LiveSince.append {course : List Happening} {token : Token} {n : Nat} {e : Happening}
    (h : LiveSince settings env m course user token n)
    (he : (m.after settings env (course ++ [e])).token? user = some token) :
    LiveSince settings env m (course ++ [e]) user token n where
  issued := by
    obtain ⟨event, masterKey, code, hn, hes⟩ := h.issued
    have hlt : n < course.length := (List.getElem?_eq_some_iff.1 hn).1
    refine ⟨event, masterKey, code, ?_, ?_⟩
    · rw [List.getElem?_append_left hlt, hn]
    · rw [List.take_append_of_le_length (Nat.le_of_lt hlt)]
      exact hes
  live k hn hk := by
    rw [List.length_append, List.length_singleton] at hk
    rcases Nat.lt_or_ge course.length k with hlt | hle
    · rw [List.take_of_length_le (by rw [List.length_append, List.length_singleton]; exact hlt)]
      exact he
    · rw [List.take_append_of_le_length hle]
      exact h.live k hn hle

theorem exists_liveSince (henv : env.cache = storageCache) (hm : m.engine.world.sessions.Empty)
    (course : List Happening) {token : Token} (h : (m.after settings env course).token? user = some token) :
    ∃ n, LiveSince settings env m course user token n := by
  induction course using List.reverseRecOn with
  | nil =>
    rw [token?_eq_some_iff] at h
    have hcell : (m.engine.world.sessions.cell user.sessionKey).live m.now = some token.text := h
    rw [← hm, Cell.live_clear] at hcell
    cases hcell
  | append_singleton course e ih =>
    have hlast : m.after settings env (course ++ [e]) = (m.after settings env course).next settings env e := by
      rw [after, List.foldl_append]
      rfl
    have hstep := h
    rw [hlast] at hstep
    rcases token?_next henv hstep with hbefore | ⟨event, masterKey, code, rfl, hes⟩
    · obtain ⟨n, hn⟩ := ih hbefore
      exact ⟨n, hn.append h⟩
    · refine ⟨course.length, ⟨event, masterKey, code, by simp, ?_⟩, fun k hn hk => ?_⟩
      · rw [List.take_left]
        exact hes
      · rw [List.take_of_length_le (by rw [List.length_append, List.length_singleton]; exact hn)]
        exact h

/-- There is only one such event: the next one would have met a live session. -/
theorem LiveSince.unique (henv : env.cache = storageCache) {start : Instant} {w : World Storage τ}
    {course : List Happening} {token : Token} {n n' : Nat}
    (h : LiveSince settings env ⟨start, .start w⟩ course user token n)
    (h' : LiveSince settings env ⟨start, .start w⟩ course user token n') : n = n' := by
  suffices ∀ {a b}, LiveSince settings env ⟨start, .start w⟩ course user token a →
      LiveSince settings env ⟨start, .start w⟩ course user token b → ¬ a < b from
    Nat.le_antisymm (Nat.not_lt.1 (this h' h)) (Nat.not_lt.1 (this h h'))
  intro a b ha hb hlt
  obtain ⟨event, masterKey, code, hevent, hes⟩ := hb.issued
  have hlive := ha.live b hlt (Nat.le_of_lt (List.getElem?_eq_some_iff.1 hevent).1)
  obtain ⟨-, hflow, -⟩ := of_authenticate_mem (by rw [hes]; exact List.mem_singleton_self _)
  rw [apart_after henv start (course.take b) user hflow] at hlive
  cases hlive

end Moment

/-- Whatever is done with an engine that starts without sessions: nobody who is asked for credentials has a live
session, an event asks the vault for a token only where credentials were waited for, and for a new account only where
there is no live session.  So a token is stored for nobody who has a live one, and every live session goes back to
exactly one event that got its token. -/
theorem login_displaces_nothing (settings : Settings) {env : Surroundings Storage τ} (henv : env.cache = storageCache)
    (start : Instant) {w : World Storage τ} (hempty : w.sessions.Empty) (course : List Happening) :
    let m : Moment Storage τ := Moment.after settings env ⟨start, .start w⟩ course
    (∀ user, m.engine.flow user = .awaitingCredentials → m.token? user = none) ∧
      (∀ user event,
        (∀ username masterKey code outcome,
          ⟨.authenticate username masterKey code, outcome⟩ ∈ (m.handled settings env user event).exchanges →
            username = user.username ∧ m.engine.flow user = .awaitingCredentials) ∧
        (∀ username outcome, ⟨.register username, outcome⟩ ∈ (m.handled settings env user event).exchanges →
          username = user.username ∧ m.token? user = none) ∧
        ∀ x ∈ m.stores settings env user event, x.user = user ∧ x.sessions.token? m.now user = none) ∧
      ∀ user token, m.token? user = some token →
        ∃! n, Moment.LiveSince settings env ⟨start, .start w⟩ course user token n := by
  intro m
  have hapart : m.Apart := Moment.apart_after henv start course
  refine ⟨hapart, fun user event => ⟨fun username masterKey code outcome hmem => ?_, fun username outcome hmem => ?_,
    fun x hx => ?_⟩, fun user token h => ?_⟩
  · obtain ⟨husername, hflow, -⟩ := Moment.of_authenticate_mem hmem
    exact ⟨husername, hflow⟩
  · obtain ⟨husername, hlive⟩ := (m.handled_episode henv settings user event).1.of_register_mem hmem
    exact ⟨husername, Moment.token?_eq_none_iff.2 hlive⟩
  · have hconduct := respond_conduct settings user (m.engine.flow user) event
    obtain ⟨huser, hsessions, hstage⟩ := hconduct.of_mem_stores hx
    refine ⟨huser, ?_⟩
    rw [hsessions]
    rcases hstage with hs | ⟨-, masterKey, code, hmem⟩
    · unfold Stage.ofEvent at hs
      split at hs <;> cases hs
    · exact hapart user (Moment.of_authenticate_mem hmem).2.1
  · obtain ⟨n, hn⟩ := Moment.exists_liveSince henv hempty course h
    exact ⟨n, hn, fun n' hn' => hn'.unique henv hn⟩

/-- A user who is logged in starts again, while another one is about to give credentials. -/
theorem login_displaces_nothing_again :
    let settings : Settings := ⟨⟨60⟩, .always, 16⟩
    let env := Surroundings.plain storageCache (.granting ⟨"token"⟩)
    let w : World Storage Unit := ⟨.memory ∅, (), 0⟩
    let start : Instant := ⟨0, by decide⟩
    let course : List Happening := [.event ⟨5⟩ (.command .start), .event ⟨6⟩ (.command .start),
      .event ⟨5⟩ (.text "key 123456"), .wait ⟨59⟩, .event ⟨5⟩ (.command .list), .wait ⟨59⟩,
      .event ⟨5⟩ (.command .start)]
    let m := Moment.after settings env ⟨start, .start w⟩ course
    w.sessions.Empty ∧ m.token? ⟨5⟩ = some ⟨"token"⟩ ∧
      (∃! n, Moment.LiveSince settings env ⟨start, .start w⟩ course ⟨5⟩ ⟨"token"⟩ n) ∧
      m.engine.flow ⟨6⟩ = .awaitingCredentials ∧ (m.stores settings env ⟨6⟩ (.text "key 123456")).length = 1 ∧
      ∀ x ∈ m.stores settings env ⟨6⟩ (.text "key 123456"), x.user = ⟨6⟩ ∧ x.sessions.token? m.now ⟨6⟩ = none := by
  intro settings env w start course m
  have hempty : w.sessions.Empty := fun _ => rfl
  have htoken : m.token? ⟨5⟩ = some ⟨"token"⟩ := by decide +kernel
  have hflow : m.engine.flow ⟨6⟩ = .awaitingCredentials := by decide +kernel
  have hlength : (m.stores settings env ⟨6⟩ (.text "key 123456")).length = 1 := by decide +kernel
  obtain ⟨-, hevents, hsessions⟩ := @login_displaces_nothing Unit settings env rfl start w hempty course
  exact ⟨hempty, htoken, hsessions ⟨5⟩ ⟨"token"⟩ htoken, hflow, hlength, (hevents ⟨6⟩ (.text "key 123456")).2.2⟩

end Engine

end VaultChat
