import VaultChat.Proofs.Episode
import VaultChat.Proofs.Lease

/-!
# The lifetime of a session

A user's session is a function of what was handled for that user.  `leaseOf` folds the user's handled events into a
lease: an authentication starts it, a call that was served renews it under the refresh policy, a logout, the deletion
of the account or a refused token ends it, and nothing else touches it.  `Episode.tracks` compares one event with one
step of the fold, `leaseOf_tracked` a whole course with the fold, and `session_eq_leaseOf` says what is left of the
session.
-/

namespace VaultChat.Engine

open Chat Session

variable {σ τ : Type}

/-! ### The fold -/

/-- What an exchange with the vault on behalf of a user makes of the user's lease. -/
def settle (settings : Settings) (now : Instant) (o : Option Lease) (x : Vault.Exchange) : Option Lease :=
  match x.call, x.outcome with
  | .authenticate .., .token t => some (.starting now t.text settings.sessionTtl)
  | .addPassword .., .done | .deletePassword .., .done =>
    if settings.refresh = .mutating ∨ settings.refresh = .always then Lease.renew now settings.sessionTtl o else o
  | .listPasswords _, .entries _ | .getPassword .., .entry _ =>
    if settings.refresh = .always then Lease.renew now settings.sessionTtl o else o
  | .deleteAccount .., .done => none
  | .addPassword .., .failed .authFailed | .listPasswords _, .failed .authFailed
  | .getPassword .., .failed .authFailed | .deletePassword .., .failed .authFailed => none
  | _, _ => o

/-- What a handled event makes of its user's lease. -/
def Handled.settle (settings : Settings) (o : Option Lease) (r : Handled) : Option Lease :=
  if r.event = .command .logOut then none else r.exchanges.foldl (Engine.settle settings r.now) o

/-- The lease that the history leaves to a user. -/
def leaseOf (settings : Settings) (user : UserId) (history : List Handled) : Option Lease :=
  (history.filter fun r => r.user = user).foldl (Handled.settle settings) none

section

variable {settings : Settings} {now : Instant} {o : Option Lease} {call : Vault.Call} {token : Token}

private theorem settle_served (hb : call.bearer? = some token) (a : call.Result) :
    settle settings now o ⟨call, call.outcome (.ok a)⟩ =
      if settings.refresh.appliesTo call.mutates then Lease.renew now settings.sessionTtl o else o := by
  obtain ⟨ttl, refresh, length⟩ := settings
  cases call with
  | register | authenticate | deleteAccount => cases hb
  | addPassword | deletePassword | listPasswords | getPassword => cases refresh <;> rfl

private theorem settle_refused (hb : call.bearer? = some token) :
    settle settings now o ⟨call, .failed .authFailed⟩ = none := by
  cases call with
  | register | authenticate | deleteAccount => cases hb
  | addPassword | deletePassword | listPasswords | getPassword => rfl

/-- A call that fails leaves the lease alone, unless the vault refuses the token that it presents. -/
private theorem settle_failed {f : Vault.Failure} (h : call.bearer? = none ∨ f ≠ .authFailed) :
    settle settings now o ⟨call, .failed f⟩ = o := by
  cases f with
  | authFailed =>
    have hb : call.bearer? = none := h.resolve_right (absurd rfl)
    cases call with
    | register | authenticate | deleteAccount => rfl
    | addPassword | deletePassword | listPasswords | getPassword => cases hb
  | notFound | conflict | rejected | transport => cases call <;> rfl

private theorem settle_register (username : String) (outcome : Vault.Outcome) :
    settle settings now o ⟨.register username, outcome⟩ = o := by
  cases outcome with
  | failed f => exact settle_failed (.inl rfl)
  | credentials | token | entries | entry | done => rfl

end

theorem leaseOf_append_singleton (settings : Settings) (user : UserId) (history : List Handled) (r : Handled) :
    leaseOf settings user (history ++ [r]) =
      if r.user = user then r.settle settings (leaseOf settings user history) else leaseOf settings user history := by
  rw [leaseOf, List.filter_append, List.foldl_append, ← leaseOf]
  by_cases h : r.user = user
  · rw [if_pos h, List.filter_cons_of_pos (by simpa using h)]
    rfl
  · rw [if_neg h, List.filter_cons_of_neg (by simpa using h)]
    rfl

/-! ### One event -/

/-- What an event does to the cell of its user is one step of the fold. -/
theorem Episode.tracks {settings : Settings} {now : Instant} {user : UserId} {flow : Flow} {r : Handled}
    {o : Option Lease} {c c' : Cell} (h : Episode settings now user flow r.event c r.exchanges c')
    (hearliest : Instant.earliest ≤ now) (hnow : r.now = now) (ho : Tracks now o c)
    (houtcome : ∀ x ∈ r.exchanges, ∃ a, x.outcome = x.call.outcome a) : Tracks now (r.settle settings o) c' := by
  unfold Handled.settle
  rw [hnow]
  generalize r.exchanges = es at h houtcome
  cases h with
  | loggedOut he =>
    rw [if_pos he]
    exact ho.clear
  | silent he =>
    rw [if_neg he]
    exact ho
  | lookedUp he =>
    rw [if_neg he]
    exact ho.get
  | registered he =>
    rw [if_neg he, List.foldl_cons, settle_register]
    exact ho.get
  | @authenticated masterKey code token he =>
    rw [if_neg he]
    exact ho.filled hearliest token.text settings.sessionTtl
  | unauthenticated he =>
    rw [if_neg he, List.foldl_cons, settle_failed (.inl rfl)]
    exact ho
  | deleted he =>
    rw [if_neg he]
    exact ho.clear
  | undeleted he =>
    rw [if_neg he, List.foldl_cons, settle_failed (.inl rfl)]
    exact ho
  | refused he _ hb =>
    rw [if_neg he, List.foldl_cons, settle_refused hb]
    exact ho.get.clear
  | unserved he _ hb hf =>
    rw [if_neg he, List.foldl_cons, settle_failed (.inr hf)]
    exact ho.get
  | @served token outcome call he _ hb hok =>
    obtain ⟨a, ha⟩ := houtcome ⟨call, outcome⟩ (List.mem_singleton_self _)
    have ha : outcome = call.outcome a := ha
    cases a with
    | error f => exact absurd (ha.trans (call.outcome_error f)) (hok f)
    | ok a =>
      rw [if_neg he, List.foldl_cons, ha, settle_served hb]
      by_cases hr : settings.refresh.appliesTo call.mutates = true
      · rw [if_pos hr, if_pos hr]
        exact ho.get.expire hearliest settings.sessionTtl
      · rw [if_neg hr, if_neg hr]
        exact ho.get

/-! ### Every course -/

section

variable {settings : Settings} {env : Surroundings Storage τ} {m : Moment Storage τ}

/-- The cell of every user tracks the lease that the history leaves to the user. -/
theorem leaseOf_tracked (hcache : env.cache = storageCache) (hm : m.engine.world.sessions = .memory ∅)
    (hstart : Instant.earliest ≤ m.now) (course : List Happening) (user : UserId) :
    Tracks (m.after settings env course).now (leaseOf settings user (m.history settings env course))
      ((m.after settings env course).engine.world.sessions.cell user.sessionKey) := by
  revert user
  refine (Moment.induction (fun past (m : Moment Storage τ) => Instant.earliest ≤ m.now ∧ ∀ user, Tracks m.now
    (leaseOf settings user past) (m.engine.world.sessions.cell user.sessionKey)) ?_ ?_ course).2
  · refine ⟨hstart, fun user => ?_⟩
    rw [hm]
    exact .empty m.now
  · rintro past m h ⟨hearliest, htracks⟩
    cases h with
    | wait span =>
      have hle := Instant.le_advance m.now span
      rw [Moment.noted, List.append_nil]
      exact ⟨Int.le_trans hearliest hle, fun user => (htracks user).later hle⟩
    | event sender event =>
      obtain ⟨hown, hothers⟩ := m.handled_episode hcache settings sender event
      refine ⟨hearliest, fun user => ?_⟩
      have hsender : (m.handled settings env sender event).user = sender := rfl
      rw [Moment.noted, leaseOf_append_singleton, hsender]
      -- An event settles its sender's lease and touches its sender's cell only.
      by_cases hu : sender = user
      · subst hu
        rw [if_pos rfl]
        exact hown.tracks hearliest rfl (htracks sender) fun x hx => ⟨_, Moment.outcome_of_mem hcache hx⟩
      · rw [if_neg hu, hothers _ (UserId.sessionKey_ne (Ne.symm hu))]
        exact htracks user

private theorem exists_memory_of_cell {s : Storage} {key : String} {e : Option MemoryEntry}
    (h : s.cell key = .memory e) : ∃ entries, s = .memory entries ∧ entries.find? key = e := by
  cases s with
  | memory entries => exact ⟨entries, rfl, Cell.memory.inj h⟩
  | table t =>
    rw [Storage.cell] at h
    cases h
  | disk p d =>
    cases ht : d.table? p with
    | some t =>
      rw [Storage.cell, ht] at h
      cases h
    | none =>
      rw [Storage.cell, ht] at h
      cases h

/-- After every course, the entry of a user runs as far as the lease that the user's own history leaves, with the same
value and the same end, and a look-up finds the token of that lease. -/
theorem session_eq_leaseOf (settings : Settings) (hcache : env.cache = storageCache)
    (hm : m.engine.world.sessions = .memory ∅) (hstart : Instant.earliest ≤ m.now) (course : List Happening)
    (user : UserId) :
    let now := (m.after settings env course).now
    let sessions := (m.after settings env course).engine.world.sessions
    let lease := Lease.running now (leaseOf settings user (m.history settings env course))
    (∃ entries, sessions = .memory entries ∧
      Lease.running now ((entries.find? user.sessionKey).map MemoryEntry.lease) = lease) ∧
    (storageCache.session? now user sessions).1 = .ok (lease.map fun l => ⟨l.value⟩) := by
  intro now sessions lease
  have htracks : Tracks now (leaseOf settings user (m.history settings env course)) (sessions.cell user.sessionKey) :=
    leaseOf_tracked hcache hm hstart course user
  constructor
  · obtain ⟨e, hcell, he⟩ := htracks
    obtain ⟨entries, hsessions, hfind⟩ := exists_memory_of_cell hcell
    exact ⟨entries, hsessions, by rw [hfind]; exact he⟩
  · rw [session?_cell, htracks.answer, htracks.live]
    show Except.ok (Option.map Token.mk (Option.map Lease.value lease)) = _
    rw [Option.map_map]
    rfl

end

/-- A session that a listing renews: it outlives the login's lease and ends with the listing's. -/
theorem session_eq_leaseOf_renewed :
    let settings : Settings := ⟨⟨60⟩, .always, 16⟩
    let env := Surroundings.plain storageCache (.granting ⟨"token"⟩)
    let m : Moment Storage Unit :=
      ⟨⟨0, by decide⟩, ⟨.insert ∅ ⟨5⟩ .awaitingCredentials, ⟨.memory ∅, (), 0⟩⟩⟩
    let course : List Happening :=
      [.event ⟨5⟩ (.text "key 123456"), .wait ⟨59⟩, .event ⟨5⟩ (.command .list), .wait ⟨59⟩]
    m.engine.world.sessions = .memory ∅ ∧ Instant.earliest ≤ m.now ∧
      leaseOf settings ⟨5⟩ (m.history settings env course) = some ⟨"token", 119⟩ ∧
      (storageCache.session? ⟨118, by decide⟩ ⟨5⟩ (m.after settings env course).engine.world.sessions).1 =
        .ok (some ⟨"token"⟩) := by
  intro settings env m course
  have hstart : Instant.earliest ≤ m.now := by decide
  have hcache : env.cache = storageCache := rfl
  have hm : m.engine.world.sessions = .memory ∅ := rfl
  have hlookUp := (session_eq_leaseOf settings hcache hm hstart course ⟨5⟩).2
  exact ⟨hm, hstart, rfl, hlookUp⟩

end VaultChat.Engine
