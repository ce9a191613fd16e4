import VaultChat.Proofs.Episode

/-!
# Bearer tokens

A token reaches the vault only while the history vouches for it: it comes from the latest authentication of the user
who sends the event, nothing has revoked it since, and its lease has not run out.  `Vouched` says this of a history,
`live_vouched` is the invariant that ties what a look-up would find to the history of its user, and
`bearer_call_vouched` is the statement about every call that presents a token.
-/

namespace VaultChat.Engine

open Chat Session

variable {σ τ : Type}

namespace Handled

/-- The vault issued the token to the user. -/
def Issues (r : Handled) (user : UserId) (token : Token) : Prop :=
  ∃ masterKey code, ⟨.authenticate user.username masterKey code, .token token⟩ ∈ r.exchanges

/-- The user logged out or deleted the account, or the vault refused a token that was presented for the user. -/
def Revokes (r : Handled) (user : UserId) : Prop :=
  r.user = user ∧ r.event = .command .logOut ∨
  (∃ code, ⟨.deleteAccount user.username code, .done⟩ ∈ r.exchanges) ∨
  r.user = user ∧ ∃ call token, call.bearer? = some token ∧ ⟨call, .failed .authFailed⟩ ∈ r.exchanges

/-- The user's session got a new lease: by an authentication, or by a call that was served and refreshes. -/
def Leases (settings : Settings) (r : Handled) (user : UserId) : Prop :=
  (∃ token, r.Issues user token) ∨
  r.user = user ∧ ∃ call outcome token, call.bearer? = some token ∧ ⟨call, outcome⟩ ∈ r.exchanges ∧
    (∀ f, outcome ≠ .failed f) ∧ settings.refresh.appliesTo call.mutates = true

end Handled

/-- The history vouches for a token of the user at an instant. -/
def Vouched (settings : Settings) (history : List Handled) (user : UserId) (token : Token) (now : Instant) : Prop :=
  ∃ before issue since, history = before ++ issue :: since ∧ issue.Issues user token ∧
    (∀ r ∈ since, ¬ r.Revokes user ∧ ∀ other, ¬ r.Issues user other) ∧
    ∃ lease ∈ issue :: since, lease.Leases settings user ∧ now < lease.now.expiryAfter settings.sessionTtl

section

variable {settings : Settings} {past : List Handled} {r : Handled} {user : UserId} {token : Token} {now t : Instant}

private theorem vouched_append (h : Vouched settings past user token t) (hr : ¬ r.Revokes user)
    (hi : ∀ other, ¬ r.Issues user other) : Vouched settings (past ++ [r]) user token t := by
  obtain ⟨before, issue, since, rfl, hissue, hsince, lease, hmem, hlease⟩ := h
  refine ⟨before, issue, since ++ [r], by simp, hissue, ?_, lease, ?_, hlease⟩
  · intro x hx
    rcases List.mem_append.1 hx with hx | hx
    · exact hsince x hx
    · rw [List.mem_singleton.1 hx]
      exact ⟨hr, hi⟩
  · rw [← List.cons_append]
    exact List.mem_append_left _ hmem

private theorem vouched_renew (h : Vouched settings past user token now) (hr : ¬ r.Revokes user)
    (hi : ∀ other, ¬ r.Issues user other) (hl : r.Leases settings user)
    (ht : t < r.now.expiryAfter settings.sessionTtl) : Vouched settings (past ++ [r]) user token t := by
  obtain ⟨before, issue, since, rfl, hissue, hsince, -⟩ := h
  refine ⟨before, issue, since ++ [r], by simp, hissue, ?_, r, by simp, hl, ht⟩
  intro x hx
  rcases List.mem_append.1 hx with hx | hx
  · exact hsince x hx
  · rw [List.mem_singleton.1 hx]
    exact ⟨hr, hi⟩

private theorem vouched_issue (h : r.Issues user token) (ht : t < r.now.expiryAfter settings.sessionTtl) :
    Vouched settings (past ++ [r]) user token t :=
  ⟨past, r, [], rfl, h, by simp, r, List.mem_cons_self, .inl ⟨token, h⟩, ht⟩

end

/-! ### One event -/

section

variable {settings : Settings} {past : List Handled} {r : Handled} {user other : UserId} {now t : Instant}
  {flow : Flow} {event : Event} {c c' : Cell}

private theorem not_issues
    (h : ∀ x ∈ r.exchanges, ∀ masterKey code token, x ≠ ⟨.authenticate user.username masterKey code, .token token⟩)
    (token : Token) : ¬ r.Issues user token := by
  rintro ⟨masterKey, code, hmem⟩
  exact h _ hmem masterKey code token rfl

private theorem not_revokes (he : r.user = user → r.event ≠ .command .logOut)
    (h : ∀ x ∈ r.exchanges, (∀ code, x ≠ ⟨.deleteAccount user.username code, .done⟩) ∧
      (r.user = user → x.outcome = .failed .authFailed → x.call.bearer? = none)) : ¬ r.Revokes user := by
  rintro (⟨hu, hlog⟩ | ⟨code, hmem⟩ | ⟨hu, call, token, hb, hmem⟩)
  · exact he hu hlog
  · exact (h _ hmem).1 code rfl
  · have := (h _ hmem).2 hu rfl
    rw [hb] at this
    cases this

/-- An event of one user neither gives another user a session nor ends one. -/
private theorem others_untouched (h : Episode settings now user flow event c r.exchanges c') (hu : r.user = user)
    (ho : other ≠ user) : ¬ r.Revokes other ∧ ∀ token, ¬ r.Issues other token := by
  have hname : user.username ≠ other.username := fun he => ho (UserId.username_injective he).symm
  have hr : r.user ≠ other := fun he => ho (he.symm.trans hu)
  suffices ∀ x ∈ r.exchanges, (∀ code, x ≠ ⟨.deleteAccount other.username code, .done⟩) ∧
      ∀ masterKey code token, x ≠ ⟨.authenticate other.username masterKey code, .token token⟩ from
    ⟨not_revokes (fun he => absurd he hr) fun x hx => ⟨(this x hx).1, fun he => absurd he hr⟩,
      not_issues fun x hx => (this x hx).2⟩
  generalize r.exchanges = es at h
  cases h with
  | silent | lookedUp | loggedOut => simp
  | registered | authenticated | unauthenticated | deleted | undeleted => simp [hname]
  | served _ _ hb | refused _ _ hb | unserved _ _ hb =>
    intro x hx
    rw [List.mem_singleton.1 hx]
    constructor
    · rintro code he
      rw [(Vault.Exchange.mk.inj he).1] at hb
      cases hb
    · rintro masterKey code token he
      rw [(Vault.Exchange.mk.inj he).1] at hb
      cases hb

/-- What the user's cell shows after an event of the user is vouched for. -/
private theorem vouched_step (h : Episode settings now user flow event c r.exchanges c') (hu : r.user = user)
    (hevent : r.event = event) (hnow : r.now = now)
    (hc : ∀ t x, now ≤ t → c.live t = some x → Vouched settings past user ⟨x⟩ t)
    {x : String} (ht : now ≤ t) (hx : c'.live t = some x) : Vouched settings (past ++ [r]) user ⟨x⟩ t := by
  subst hu hevent hnow
  generalize hes : r.exchanges = es at h
  -- An event that neither issues nor revokes keeps what the history vouched for.
  have keep : r.event ≠ .command .logOut →
      (∀ y ∈ es, (∀ code, y ≠ ⟨.deleteAccount r.user.username code, .done⟩) ∧
        (y.outcome = .failed .authFailed → y.call.bearer? = none) ∧
        ∀ masterKey code token, y ≠ ⟨.authenticate r.user.username masterKey code, .token token⟩) →
      ¬ r.Revokes r.user ∧ ∀ token, ¬ r.Issues r.user token := fun he hy =>
    ⟨not_revokes (fun _ => he) fun y hmem => by
        rw [hes] at hmem
        exact ⟨(hy y hmem).1, fun _ => (hy y hmem).2.1⟩,
      not_issues fun y hmem => by
        rw [hes] at hmem
        exact (hy y hmem).2.2⟩
  cases h with
  | silent he =>
    obtain ⟨hr, hi⟩ := keep he (by simp)
    exact vouched_append (hc t x ht hx) hr hi
  | lookedUp he =>
    obtain ⟨hr, hi⟩ := keep he (by simp)
    rw [Cell.live_get ht] at hx
    exact vouched_append (hc t x ht hx) hr hi
  | registered he hl =>
    rw [Cell.live_get ht, Cell.live_none_of_le ht hl] at hx
    cases hx
  | loggedOut | deleted | refused =>
    rw [Cell.delete, Cell.live_clear] at hx
    cases hx
  | @authenticated masterKey code token he =>
    obtain ⟨rfl, hlt⟩ := Cell.live_filled hx
    have hissue : r.Issues r.user token := ⟨masterKey, code, by rw [hes]; exact List.mem_singleton_self _⟩
    exact vouched_issue hissue hlt
  | unauthenticated he | undeleted he =>
    obtain ⟨hr, hi⟩ := keep he (by simp [Vault.Call.bearer?])
    exact vouched_append (hc t x ht hx) hr hi
  | unserved he hl hb hf =>
    obtain ⟨hr, hi⟩ := keep he (by
      intro y hy
      rw [List.mem_singleton.1 hy]
      refine ⟨by simp, fun ho => absurd (Vault.Outcome.failed.inj ho) hf, by simp⟩)
    rw [Cell.live_get ht] at hx
    exact vouched_append (hc t x ht hx) hr hi
  | @served token outcome call he hl hb ho =>
    obtain ⟨hr, hi⟩ := keep he (by
      intro y hy
      rw [List.mem_singleton.1 hy]
      refine ⟨fun code h => ?_, fun h => absurd h (ho _), fun masterKey code token h => ?_⟩
      all_goals
        rw [(Vault.Exchange.mk.inj h).1] at hb
        cases hb)
    by_cases hrefresh : settings.refresh.appliesTo call.mutates = true
    · rw [if_pos hrefresh] at hx
      obtain ⟨hlive, hlt⟩ := Cell.live_expire ht hx
      rw [Cell.live_get (Int.le_refl _)] at hlive
      have hlease : r.Leases settings r.user :=
        .inr ⟨rfl, call, outcome, token, hb, by rw [hes]; exact List.mem_singleton_self _, ho, hrefresh⟩
      exact vouched_renew (hc r.now x (Int.le_refl _) hlive) hr hi hlease hlt
    · rw [if_neg hrefresh, Cell.live_get ht] at hx
      exact vouched_append (hc t x ht hx) hr hi

end

/-! ### Every course -/

section

variable {settings : Settings} {env : Surroundings Storage τ} {m : Moment Storage τ} {user : UserId} {t : Instant}

/-- Whatever a user's cell shows from now on is vouched for by what has been handled. -/
theorem live_vouched (henv : env.cache = storageCache) (hm : m.engine.world.sessions.Empty)
    (course : List Happening) {x : String} (ht : (m.after settings env course).now ≤ t)
    (hx : ((m.after settings env course).engine.world.sessions.cell user.sessionKey).live t = some x) :
    Vouched settings (m.history settings env course) user ⟨x⟩ t := by
  refine Moment.induction (fun past m => ∀ user t x, m.now ≤ t →
    (m.engine.world.sessions.cell user.sessionKey).live t = some x → Vouched settings past user ⟨x⟩ t)
    ?_ ?_ course user t x ht hx
  · intro user t x _ hx
    rw [← hm, Cell.live_clear] at hx
    cases hx
  · intro past m h hI user t x ht hx
    cases h with
    | wait span =>
      rw [Moment.noted, List.append_nil]
      exact hI user t x (Int.le_trans (Instant.le_advance m.now span) ht) hx
    | event sender event =>
      obtain ⟨hown, hothers⟩ := m.handled_episode henv settings sender event
      by_cases hu : user = sender
      · subst hu
        exact vouched_step hown rfl rfl rfl (hI user) ht hx
      · rw [hothers _ (UserId.sessionKey_ne hu)] at hx
        obtain ⟨hr, hi⟩ := others_untouched hown rfl hu
        exact vouched_append (hI user t x ht hx) hr hi

/-- A call that presents a token is the only call of its event, and the history vouches for the token. -/
theorem bearer_call_vouched (henv : env.cache = storageCache) (hm : m.engine.world.sessions.Empty)
    (course : List Happening) {past future : List Handled} {r : Handled}
    (hr : m.history settings env course = past ++ r :: future) :
    r.exchanges.length ≤ 1 ∧ ∀ call outcome token, ⟨call, outcome⟩ ∈ r.exchanges → call.bearer? = some token →
      Vouched settings past r.user token r.now := by
  obtain ⟨before, hpast, hhandled⟩ := Moment.met hr
  obtain ⟨hown, -⟩ := (m.after settings env before).handled_episode henv settings r.user r.event
  have hnow : r.now = (m.after settings env before).now := by rw [hhandled]; rfl
  rw [← hhandled, ← hnow] at hown
  refine ⟨hown.length_le, fun call outcome token hmem hb => ?_⟩
  have hlive := hown.live_of_bearer hmem hb
  rw [← hpast]
  exact live_vouched henv hm before (Int.le_of_eq (congrArg Instant.nanos hnow.symm)) hlive

end

/-- A login and a listing just before the lease runs out. -/
theorem bearer_call_vouched_listing :
    let settings : Settings := ⟨⟨60⟩, .never, 16⟩
    let m : Moment Storage Unit :=
      ⟨⟨0, by decide⟩, ⟨.insert ∅ ⟨5⟩ .awaitingCredentials, ⟨.memory ∅, (), 0⟩⟩⟩
    ∃ past r, m.history settings (.plain storageCache (.granting ⟨"token"⟩))
        [.event ⟨5⟩ (.text "key 123456"), .wait ⟨59⟩, .event ⟨5⟩ (.command .list)] = past ++ [r] ∧
      r.exchanges = [⟨.listPasswords ⟨"token"⟩, .entries []⟩] ∧
      Vouched settings past r.user ⟨"token"⟩ r.now := by
  intro settings m
  have hr : m.history settings (.plain storageCache (.granting ⟨"token"⟩))
      [.event ⟨5⟩ (.text "key 123456"), .wait ⟨59⟩, .event ⟨5⟩ (.command .list)] = [_] ++ [_] := rfl
  exact ⟨_, _, hr, rfl, (bearer_call_vouched rfl (fun _ => rfl) _ hr).2 _ (.entries []) _
    (List.mem_singleton_self _) rfl⟩

end VaultChat.Engine
