import VaultChat.Proofs.Cells
import VaultChat.Proofs.Conduct

/-!
# What an event does to a session

Handling an event exchanges at most one message with the vault and touches at most the sender's own session.
`Episode` lists what can become of the cell of that session, each case with the exchange that goes with it, and
`handled_episode` says that every handled event is one of these cases.
-/

namespace VaultChat.Engine

open Chat Session

variable {σ τ : Type}

/-- What an event of `user` in the dialogue `flow` makes of the cell of the user's session, with its exchanges. -/
inductive Episode (settings : Settings) (now : Instant) (user : UserId) (flow : Flow) (event : Event) :
    Cell → List Vault.Exchange → Cell → Prop where
  | silent {c} (he : event ≠ .command .logOut) : Episode settings now user flow event c [] c
  | lookedUp {c} (he : event ≠ .command .logOut) : Episode settings now user flow event c [] (c.get now).2
  | loggedOut {c} (he : event = .command .logOut) : Episode settings now user flow event c [] (c.delete now).2
  | registered {c outcome} (he : event ≠ .command .logOut) (hl : c.live now = none) :
      Episode settings now user flow event c [⟨.register user.username, outcome⟩] (c.get now).2
  | authenticated {c masterKey code token} (he : event ≠ .command .logOut) (hf : flow = .awaitingCredentials) :
      Episode settings now user flow event c [⟨.authenticate user.username masterKey code, .token token⟩]
        (c.set now token.text settings.sessionTtl).2
  | unauthenticated {c masterKey code f} (he : event ≠ .command .logOut) (hf : flow = .awaitingCredentials) :
      Episode settings now user flow event c [⟨.authenticate user.username masterKey code, .failed f⟩] c
  | deleted {c code} (he : event ≠ .command .logOut) (hf : flow = .awaitingCode) :
      Episode settings now user flow event c [⟨.deleteAccount user.username code, .done⟩] (c.delete now).2
  | undeleted {c code f} (he : event ≠ .command .logOut) (hf : flow = .awaitingCode) :
      Episode settings now user flow event c [⟨.deleteAccount user.username code, .failed f⟩] c
  | served {c token outcome} {call : Vault.Call} (he : event ≠ .command .logOut)
      (hl : c.live now = some token.text) (hb : call.bearer? = some token) (ho : ∀ f, outcome ≠ .failed f) :
      Episode settings now user flow event c [⟨call, outcome⟩]
        (if settings.refresh.appliesTo call.mutates then ((c.get now).2.expire now settings.sessionTtl).2
          else (c.get now).2)
  | refused {c token} {call : Vault.Call} (he : event ≠ .command .logOut)
      (hl : c.live now = some token.text) (hb : call.bearer? = some token) :
      Episode settings now user flow event c [⟨call, .failed .authFailed⟩] ((c.get now).2.delete now).2
  | unserved {c token f} {call : Vault.Call} (he : event ≠ .command .logOut)
      (hl : c.live now = some token.text) (hb : call.bearer? = some token) (hf : f ≠ .authFailed) :
      Episode settings now user flow event c [⟨call, .failed f⟩] (c.get now).2

namespace Episode

variable {settings : Settings} {now : Instant} {user : UserId} {flow : Flow} {event : Event} {c c' : Cell}
  {es : List Vault.Exchange}

theorem length_le (h : Episode settings now user flow event c es c') : es.length ≤ 1 := by
  cases h <;> simp

/-- A token is presented only while the session holds it. -/
theorem live_of_bearer (h : Episode settings now user flow event c es c') {call : Vault.Call}
    {outcome : Vault.Outcome} {token : Token} (hmem : ⟨call, outcome⟩ ∈ es) (hb : call.bearer? = some token) :
    c.live now = some token.text := by
  cases h with
  | silent | lookedUp | loggedOut => cases hmem
  | registered | authenticated | unauthenticated | deleted | undeleted =>
    rw [(Vault.Exchange.mk.inj (List.mem_singleton.1 hmem)).1] at hb
    cases hb
  | served _ hl hb' | refused _ hl hb' | unserved _ hl hb' =>
    rw [(Vault.Exchange.mk.inj (List.mem_singleton.1 hmem)).1, hb'] at hb
    cases hb
    exact hl

end Episode

/-- A procedure has these exchanges, leaves this cell to the user and no other cell changed. -/
structure Leaves (env : Surroundings Storage τ) (user : UserId) (p : Procedure Transition) (w : World Storage τ)
    (es : List Vault.Exchange) (c : Cell) : Prop where
  exchanges : p.exchanges env w = es
  cell : (p.run env w).2.sessions.cell user.sessionKey = c
  others : ∀ key ≠ user.sessionKey, (p.run env w).2.sessions.cell key = w.sessions.cell key

section

variable {settings : Settings} {env : Surroundings Storage τ} {user : UserId} {flow : Flow} {event : Event}
  {p : Procedure Transition} {w : World Storage τ}

theorem Conduct.eq_done (h : Conduct settings user flow event .over p) : ∃ t, p = .done t := by
  cases h
  exact ⟨_, rfl⟩

private theorem leaves_done (env : Surroundings Storage τ) (user : UserId) (w : World Storage τ) (t : Transition) :
    Leaves env user (.done t) w [] (w.sessions.cell user.sessionKey) :=
  ⟨rfl, rfl, fun _ _ => rfl⟩

/-- What is left by `p` is left by a procedure `q` that turns into `p` by an operation on the user's session. -/
private theorem leaves_after {α : Type} {op : Storage → Except Error α × Storage}
    {f : Cell → Except Error α × Cell} {q : Procedure Transition} {es : List Vault.Exchange} {c : Cell}
    (hop : ActsOn user.sessionKey op f) (hr : q.run env w = p.run env { w with sessions := (op w.sessions).2 })
    (he : q.exchanges env w = p.exchanges env { w with sessions := (op w.sessions).2 })
    (h : Leaves env user p { w with sessions := (op w.sessions).2 } es c) : Leaves env user q w es c := by
  refine ⟨he.trans h.exchanges, by rw [hr]; exact h.cell, fun key hk => ?_⟩
  rw [hr, h.others key hk]
  show (op w.sessions).2.cell key = _
  rw [(hop w.sessions).2, if_neg hk]

private theorem leaves_last {α : Type} {op : Storage → Except Error α × Storage}
    {f : Cell → Except Error α × Cell} {q : Procedure Transition} {t : Transition}
    (hop : ActsOn user.sessionKey op f) (hr : q.run env w = (t, { w with sessions := (op w.sessions).2 }))
    (he : q.exchanges env w = []) : Leaves env user q w [] (f (w.sessions.cell user.sessionKey)).2 := by
  have h := leaves_done env user { w with sessions := (op w.sessions).2 } t
  have hcell : (op w.sessions).2.cell user.sessionKey = (f (w.sessions.cell user.sessionKey)).2 := by
    rw [(hop w.sessions).2, if_pos rfl]
  rw [← hcell]
  exact leaves_after (p := .done t) hop hr he h

private theorem leaves_call {c : Vault.Call} {next : c.Answer → Procedure Transition} {es : List Vault.Exchange}
    {cell : Cell} (h : Leaves env user (next (env.vault.respond c w.vault).1)
      { w with vault := (env.vault.respond c w.vault).2 } es cell) :
    Leaves env user (.call c next) w (⟨c, c.outcome (env.vault.respond c w.vault).1⟩ :: es) cell :=
  ⟨congrArg (_ :: ·) h.exchanges, h.cell, h.others⟩

/-- From a look-up on that found no session. -/
private theorem leaves_absent {cell : Cell} (h : Conduct settings user flow event .absent p)
    (he : event ≠ .command .logOut) (hl : cell.live env.now = none)
    (hcell : w.sessions.cell user.sessionKey = (cell.get env.now).2) :
    ∃ es c, Leaves env user p w es c ∧ Episode settings env.now user flow event cell es c := by
  cases h with
  | @done _ t _ => exact ⟨[], _, leaves_done _ _ _ t, by rw [hcell]; exact .lookedUp he⟩
  | @register next h =>
    obtain ⟨t, ht⟩ := (h (env.vault.respond (.register user.username) w.vault).1).eq_done
    refine ⟨[_], (cell.get env.now).2, leaves_call ?_, .registered he hl⟩
    rw [ht, ← hcell]
    exact leaves_done _ _ _ t

variable (hc : env.cache = storageCache)
include hc

private theorem leaves_ending (h : Conduct settings user flow event .ending p) :
    Leaves env user p w [] ((w.sessions.cell user.sessionKey).delete env.now).2 := by
  cases h with
  | done h => cases h
  | @forget next h =>
    obtain ⟨t, ht⟩ := (h (storageCache.deleteSession env.now user w.sessions).1).eq_done
    refine leaves_last (t := t) (delete_actsOn env.now user.sessionKey) ?_ ?_
    · simp only [Procedure.run, hc, ht]
      rfl
    · simp only [Procedure.exchanges, hc, ht]

private theorem leaves_issued {token : Token} (h : Conduct settings user flow event (.issued token) p) :
    Leaves env user p w []
      ((w.sessions.cell user.sessionKey).set env.now token.text settings.sessionTtl).2 := by
  cases h with
  | done h => cases h
  | @store _ next h =>
    obtain ⟨t, ht⟩ :=
      (h (storageCache.putSession env.now user token settings.sessionTtl w.sessions).1).eq_done
    refine leaves_last (t := t) (set_actsOn env.now user.sessionKey token.text settings.sessionTtl) ?_ ?_
    · simp only [Procedure.run, hc, ht]
      rfl
    · simp only [Procedure.exchanges, hc, ht]

private theorem leaves_served {mutating : Bool} (h : Conduct settings user flow event (.served mutating) p) :
    Leaves env user p w [] (if settings.refresh.appliesTo mutating then
      ((w.sessions.cell user.sessionKey).expire env.now settings.sessionTtl).2
      else w.sessions.cell user.sessionKey) := by
  cases h with
  | @done _ t h =>
    have hr : settings.refresh.appliesTo mutating = false := by simpa [Stage.mayStop] using h
    rw [hr]
    exact leaves_done _ _ _ t
  | @extend _ next hr h =>
    rw [hr, if_pos rfl]
    obtain ⟨t, ht⟩ := (h (storageCache.touchSession env.now user settings.sessionTtl w.sessions).1).eq_done
    refine leaves_last (t := t) (expire_actsOn env.now user.sessionKey settings.sessionTtl) ?_ ?_
    · simp only [Procedure.run, hc, ht]
      rfl
    · simp only [Procedure.exchanges, hc, ht]

/-- From a look-up on that found a token. -/
private theorem leaves_holding {cell : Cell} {token : Token} (h : Conduct settings user flow event (.holding token) p)
    (he : event ≠ .command .logOut) (hl : cell.live env.now = some token.text)
    (hcell : w.sessions.cell user.sessionKey = (cell.get env.now).2) :
    ∃ es c, Leaves env user p w es c ∧ Episode settings env.now user flow event cell es c := by
  cases h with
  | @done _ t _ => exact ⟨[], _, leaves_done _ _ _ t, by rw [hcell]; exact .lookedUp he⟩
  | @present _ call next hb h =>
    have hn := h (env.vault.respond call w.vault).1
    cases hr : (env.vault.respond call w.vault).1 with
    | ok a =>
      rw [hr] at hn
      have hs := leaves_served (w := { w with vault := (env.vault.respond call w.vault).2 }) hc hn
      refine ⟨_, _, leaves_call (by rw [hr]; exact hs), ?_⟩
      rw [hr]
      show Episode _ _ _ _ _ _ _ (if _ then ((w.sessions.cell _).expire _ _).2 else w.sessions.cell _)
      rw [hcell]
      exact .served he hl hb (call.outcome_ok_ne_failed a)
    | error f =>
      rw [hr] at hn
      by_cases hf : f = .authFailed
      · subst hf
        have hs := leaves_ending (w := { w with vault := (env.vault.respond call w.vault).2 }) hc hn
        refine ⟨_, _, leaves_call (by rw [hr]; exact hs), ?_⟩
        rw [hr, Vault.Call.outcome_error]
        show Episode _ _ _ _ _ _ _ ((w.sessions.cell _).delete _).2
        rw [hcell]
        exact .refused he hl hb
      · -- The session outlives every other failure.
        have hstage : Stage.ofService call (.error f) = .over := by
          cases f <;> first | rfl | exact absurd rfl hf
        rw [hstage] at hn
        obtain ⟨t, ht⟩ := hn.eq_done
        refine ⟨[_], (cell.get env.now).2, leaves_call ?_, ?_⟩
        · rw [hr, ht, ← hcell]
          exact leaves_done _ _ _ t
        · rw [hr, Vault.Call.outcome_error]
          exact .unserved he hl hb hf

private theorem leaves_lookUp {next : Except Error (Option Token) → Procedure Transition}
    (h : ∀ r, Conduct settings user flow event (.ofLookUp r) (next r)) (he : event ≠ .command .logOut) :
    ∃ es c, Leaves env user (.lookUp user next) w es c ∧
      Episode settings env.now user flow event (w.sessions.cell user.sessionKey) es c := by
  have hop := get_actsOn env.now user.sessionKey
  suffices ∃ es c, Leaves env user (next (storageCache.session? env.now user w.sessions).1)
      { w with sessions := (storageCache.get env.now user.sessionKey w.sessions).2 } es c ∧
      Episode settings env.now user flow event (w.sessions.cell user.sessionKey) es c by
    obtain ⟨es, c, hl, hepisode⟩ := this
    refine ⟨es, c, leaves_after hop ?_ ?_ hl, hepisode⟩
    · simp only [Procedure.run, hc]
      rfl
    · simp only [Procedure.exchanges, hc]
      rfl
  have hcell : (storageCache.get env.now user.sessionKey w.sessions).2.cell user.sessionKey =
      ((w.sessions.cell user.sessionKey).get env.now).2 := by
    rw [(hop w.sessions).2, if_pos rfl]
  have hresult := session?_cell env.now user w.sessions
  -- What the look-up finds decides the stage: a token, nothing, or a storage that fails.
  have hnext := h (storageCache.session? env.now user w.sessions).1
  generalize w.sessions.cell user.sessionKey = cell at hcell hresult
  cases hlive : cell.live env.now with
  | some v =>
    have hv : (storageCache.session? env.now user w.sessions).1 = .ok (some ⟨v⟩) := by
      rw [hresult, hlive]
      cases cell <;> first | rfl | cases hlive
    rw [hv] at hnext ⊢
    exact leaves_holding hc hnext he hlive hcell
  | none =>
    by_cases hclosed : cell = .closed
    · subst hclosed
      have hv : (storageCache.session? env.now user w.sessions).1 = .error .database := hresult
      rw [hv] at hnext ⊢
      obtain ⟨t, ht⟩ := hnext.eq_done
      exact ⟨[], _, by rw [ht, ← hcell]; exact leaves_done _ _ _ t, .lookedUp he⟩
    · have hv : (storageCache.session? env.now user w.sessions).1 = .ok none := by
        rw [hresult, hlive]
        cases cell <;> first | rfl | exact absurd rfl hclosed
      rw [hv] at hnext ⊢
      exact leaves_absent hnext he hlive hcell

/-- Whatever is asked by the rules is one of the cases. -/
theorem Conduct.episode (h : Conduct settings user flow event (.ofEvent event) p) :
    ∃ es c, Leaves env user p w es c ∧
      Episode settings env.now user flow event (w.sessions.cell user.sessionKey) es c := by
  by_cases he : event = .command .logOut
  · rw [Stage.ofEvent, if_pos he] at h
    exact ⟨_, _, leaves_ending hc h, .loggedOut he⟩
  · rw [Stage.ofEvent, if_neg he] at h
    cases h with
    | @done _ t _ => exact ⟨_, _, leaves_done _ _ _ t, .silent he⟩
    | lookUp h => exact leaves_lookUp hc h he
    | @authenticate masterKey code next hplan h =>
      have hf : flow = .awaitingCredentials := by
        cases plan_eq_run_iff.1 hplan with
        | authenticate hf => exact hf
      have hn := h (env.vault.respond (.authenticate user.username masterKey code) w.vault).1
      cases hr : (env.vault.respond (.authenticate user.username masterKey code) w.vault).1 with
      | ok token =>
        rw [hr] at hn
        exact ⟨_, _, leaves_call (by rw [hr]; exact leaves_issued hc hn), by rw [hr]; exact .authenticated he hf⟩
      | error f =>
        rw [hr] at hn
        obtain ⟨t, ht⟩ := hn.eq_done
        exact ⟨_, _, leaves_call (by rw [hr, ht]; exact leaves_done _ _ _ t),
          by rw [hr]; exact .unauthenticated he hf⟩
    | @deleteAccount code next hplan h =>
      have hf : flow = .awaitingCode := by
        cases plan_eq_run_iff.1 hplan with
        | deleteAccount hf => exact hf
      have hn := h (env.vault.respond (.deleteAccount user.username code) w.vault).1
      cases hr : (env.vault.respond (.deleteAccount user.username code) w.vault).1 with
      | ok _ =>
        rw [hr] at hn
        exact ⟨_, _, leaves_call (by rw [hr]; exact leaves_ending hc hn), by rw [hr]; exact .deleted he hf⟩
      | error f =>
        rw [hr] at hn
        obtain ⟨t, ht⟩ := hn.eq_done
        exact ⟨_, _, leaves_call (by rw [hr, ht]; exact leaves_done _ _ _ t), by rw [hr]; exact .undeleted he hf⟩
    | @choose extra hg => exact ⟨_, _, ⟨rfl, rfl, fun _ _ => rfl⟩, .silent he⟩

/-- Every handled event is one of the cases, and touches no other session. -/
theorem Moment.handled_episode (settings : Settings) (m : Moment Storage τ) (user : UserId) (event : Event) :
    Episode settings m.now user (m.engine.flow user) event
        (m.engine.world.sessions.cell user.sessionKey) (m.handled settings env user event).exchanges
        ((m.next settings env (.event user event)).engine.world.sessions.cell user.sessionKey) ∧
      ∀ key ≠ user.sessionKey, (m.next settings env (.event user event)).engine.world.sessions.cell key =
        m.engine.world.sessions.cell key := by
  have h : ∃ es c, Leaves (env.at m.now) user (respond settings user (m.engine.flow user) event) m.engine.world es c ∧
      Episode settings m.now user (m.engine.flow user) event (m.engine.world.sessions.cell user.sessionKey) es c :=
    (respond_conduct settings user (m.engine.flow user) event).episode hc
  obtain ⟨es, c, hl, he⟩ := h
  refine ⟨?_, hl.others⟩
  have hexchanges : (m.handled settings env user event).exchanges = es := hl.exchanges
  have hcell : (m.next settings env (.event user event)).engine.world.sessions.cell user.sessionKey = c := hl.cell
  rw [hexchanges, hcell]
  exact he

/-- A call is answered by the vault as the event finds it. -/
theorem Moment.outcome_of_mem {settings : Settings} {m : Moment Storage τ} {x : Vault.Exchange}
    (hx : x ∈ (m.handled settings env user event).exchanges) :
    x.outcome = x.call.outcome (env.vault.respond x.call m.engine.world.vault).1 := by
  obtain ⟨hown, -⟩ := m.handled_episode hc settings user event
  cases he : (m.handled settings env user event).exchanges with
  | nil =>
    rw [he] at hx
    cases hx
  | cons y es =>
    have hlength := hown.length_le
    rw [he] at hx hlength
    have hes : es = [] := List.eq_nil_of_length_eq_zero (Nat.le_zero.1 (Nat.le_of_succ_le_succ hlength))
    rw [hes, List.mem_singleton] at hx
    have hfirst : (respond settings user (m.engine.flow user) event).exchanges (env.at m.now) m.engine.world =
        y :: es := he
    have houtcome := Procedure.outcome_of_exchanges_eq_cons hfirst
    rw [hx]
    exact houtcome

end

end VaultChat.Engine
