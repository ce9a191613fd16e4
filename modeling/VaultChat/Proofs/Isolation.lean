import VaultChat.Proofs.Lockstep

/-!
# Isolation

A user does not notice what others do.  Take a course of events and strike out those of all other users.  If the vault
answers the user's calls as it would with nobody else calling (`Undisturbed`), the user gets the same replies from
both courses, up to generated passwords, after the same calls, and stands at the same point of the dialogue with the
same session (`isolated`).
-/

namespace VaultChat.Engine

open Chat Session

variable {τ : Type}

/-- Time passes for everyone, and an event is its sender's. -/
def Happening.concerns (user : UserId) : Happening → Bool
  | .event sender _ => sender = user
  | .wait _ => true

/-- The user's calls are answered as if nobody else called: `v` is the state that the user's own calls have left to
the vault.  An event makes no more than one call. -/
def Undisturbed (vault : Vault.Service τ) (user : UserId) : τ → List Handled → Prop
  | _, [] => True
  | v, r :: history =>
    if r.user = user then
      (∀ x ∈ r.exchanges, x.outcome = x.call.outcome (vault.respond x.call v).1) ∧
        Undisturbed vault user (vault.after v (r.exchanges.map Vault.Exchange.call)) history
    else Undisturbed vault user v history

instance Undisturbed.decidable (vault : Vault.Service τ) (user : UserId) :
    (v : τ) → (history : List Handled) → Decidable (Undisturbed vault user v history)
  | _, [] => .isTrue trivial
  | v, r :: history =>
    have := Undisturbed.decidable vault user (vault.after v (r.exchanges.map Vault.Exchange.call)) history
    have := Undisturbed.decidable vault user v history
    inferInstanceAs (Decidable (if r.user = user then
      (∀ x ∈ r.exchanges, x.outcome = x.call.outcome (vault.respond x.call v).1) ∧
        Undisturbed vault user (vault.after v (r.exchanges.map Vault.Exchange.call)) history
      else Undisturbed vault user v history))

section

variable {vault : Vault.Service τ} {user : UserId} {v : τ} {r : Handled} {history : List Handled}

theorem undisturbed_own (hr : r.user = user) : Undisturbed vault user v (r :: history) ↔
    (∀ x ∈ r.exchanges, x.outcome = x.call.outcome (vault.respond x.call v).1) ∧
      Undisturbed vault user (vault.after v (r.exchanges.map Vault.Exchange.call)) history := by
  rw [Undisturbed, if_pos hr]

theorem undisturbed_other (hr : r.user ≠ user) :
    Undisturbed vault user v (r :: history) ↔ Undisturbed vault user v history := by
  rw [Undisturbed, if_neg hr]

end

/-- The same time, and the same dialogue and cell of the user. -/
structure Moment.SameFor (user : UserId) (m₁ m₂ : Moment Storage τ) : Prop where
  now : m₁.now = m₂.now
  flow : m₁.engine.flow user = m₂.engine.flow user
  cell : m₁.engine.world.sessions.cell user.sessionKey = m₂.engine.world.sessions.cell user.sessionKey

namespace Moment.SameFor

variable {settings : Settings} {env : Surroundings Storage τ} {user : UserId} {m₁ m₂ : Moment Storage τ}

theorem wait (h : m₁.SameFor user m₂) (span : Span) :
    (m₁.next settings env (.wait span)).SameFor user (m₂.next settings env (.wait span)) where
  now := congrArg (Instant.advance · span) h.now
  flow := h.flow
  cell := h.cell

/-- An event of somebody else. -/
theorem other (h : m₁.SameFor user m₂) (hcache : env.cache = storageCache) {sender : UserId} (hs : sender ≠ user)
    (event : Event) : (m₁.next settings env (.event sender event)).SameFor user m₂ where
  now := h.now
  flow := (Moment.flow_next_of_ne settings env m₁ (Ne.symm hs) event).trans h.flow
  cell := by
    obtain ⟨-, hothers⟩ := m₁.handled_episode hcache settings sender event
    rw [hothers _ (UserId.sessionKey_ne (Ne.symm hs))]
    exact h.cell

/-- An event of the user. -/
theorem own (h : m₁.SameFor user m₂) (hcache : env.cache = storageCache) (event : Event)
    (hout : ∀ x ∈ (m₁.handled settings env user event).exchanges,
      x.outcome = x.call.outcome (env.vault.respond x.call m₂.engine.world.vault).1) :
    (m₁.handled settings env user event).masked = (m₂.handled settings env user event).masked ∧
      (m₁.next settings env (.event user event)).SameFor user (m₂.next settings env (.event user event)) := by
  obtain ⟨hhandled, hflow, hcell⟩ := Moment.handled_lockstep hcache hcache h.now (simulates_eq (fun _ => True) m₁.now)
    trivial h.flow h.cell event hout
  exact ⟨hhandled, h.now, hflow, hcell⟩

/-- A happening, which the user alone does not see unless it concerns the user. -/
theorem step (h : m₁.SameFor user m₂) (hcache : env.cache = storageCache) (e : Happening) (course : List Happening)
    (hvault : Undisturbed env.vault user m₂.engine.world.vault (m₁.history settings env (e :: course))) :
    ((m₁.noted settings env e).filter fun r => r.user = user).map Handled.masked =
        (m₂.history settings env ([e].filter (Happening.concerns user))).map Handled.masked ∧
      (m₁.next settings env e).SameFor user (m₂.after settings env ([e].filter (Happening.concerns user))) ∧
      Undisturbed env.vault user (m₂.after settings env ([e].filter (Happening.concerns user))).engine.world.vault
        ((m₁.next settings env e).history settings env course) := by
  cases e with
  | wait span => exact ⟨rfl, h.wait span, hvault⟩
  | event sender event =>
    have hsender : (m₁.handled settings env sender event).user = sender := rfl
    by_cases hs : sender = user
    · subst hs
      have hseen : [Happening.event sender event].filter (Happening.concerns sender) = [.event sender event] :=
        List.filter_cons_of_pos (decide_eq_true rfl)
      obtain ⟨hout, hrest⟩ := (undisturbed_own hsender).1 hvault
      obtain ⟨hhandled, hnext⟩ := h.own hcache event hout
      have hown : (m₁.noted settings env (.event sender event)).filter (fun r => r.user = sender) =
        [m₁.handled settings env sender event] := List.filter_cons_of_pos (decide_eq_true hsender)
      rw [hseen, hown]
      refine ⟨congrArg (fun r => [r]) hhandled, hnext, ?_⟩
      rw [Handled.exchanges_eq_of_masked hhandled, ← Moment.vault_next] at hrest
      exact hrest
    · have hseen : [Happening.event sender event].filter (Happening.concerns user) = [] :=
        List.filter_cons_of_neg (by simpa [Happening.concerns] using hs)
      have hown : (m₁.noted settings env (.event sender event)).filter (fun r => r.user = user) = [] :=
        List.filter_cons_of_neg (by simpa [hsender] using hs)
      rw [hseen, hown]
      exact ⟨rfl, h.other hcache hs event, (undisturbed_other hs).1 hvault⟩

/-- A course and what of it concerns the user. -/
theorem history (h : m₁.SameFor user m₂) (hcache : env.cache = storageCache) (course : List Happening)
    (hvault : Undisturbed env.vault user m₂.engine.world.vault (m₁.history settings env course)) :
    ((m₁.history settings env course).filter fun r => r.user = user).map Handled.masked =
        (m₂.history settings env (course.filter (Happening.concerns user))).map Handled.masked ∧
      ∀ before, before <+: course → (m₁.after settings env before).SameFor user
        (m₂.after settings env (before.filter (Happening.concerns user))) := by
  induction course generalizing m₁ m₂ with
  | nil =>
    refine ⟨rfl, fun before hb => ?_⟩
    rw [List.prefix_nil.1 hb]
    exact h
  | cons e course ih =>
    obtain ⟨hnoted, hnext, hvault⟩ := h.step hcache e course hvault
    obtain ⟨hhistory, hafter⟩ := ih hnext hvault
    have hsplit : ∀ course, (e :: course).filter (Happening.concerns user) =
        [e].filter (Happening.concerns user) ++ course.filter (Happening.concerns user) :=
      fun course => List.filter_append [e] course
    refine ⟨?_, fun before hb => ?_⟩
    · rw [hsplit, Moment.history_append, Moment.history, List.filter_append, List.map_append, List.map_append, hnoted,
        hhistory]
    · cases before with
      | nil => exact h
      | cons b before =>
        obtain ⟨rfl, hrest⟩ := List.cons_prefix_cons.1 hb
        rw [hsplit, Moment.after, Moment.after, List.foldl_append]
        exact hafter before hrest

end Moment.SameFor

/-- Strike out what others send.  The user gets the same replies after the same calls, and at every point of the
course the user's dialogue and what a look-up finds of the user's session are the same. -/
theorem isolated (settings : Settings) {env : Surroundings Storage τ} (hcache : env.cache = storageCache)
    (m : Moment Storage τ) (user : UserId) (course : List Happening)
    (hvault : Undisturbed env.vault user m.engine.world.vault (m.history settings env course)) :
    ((m.history settings env course).filter fun r => r.user = user).map Handled.masked =
        (m.history settings env (course.filter (Happening.concerns user))).map Handled.masked ∧
      ∀ before, before <+: course →
        let all := m.after settings env before
        let own := m.after settings env (before.filter (Happening.concerns user))
        all.now = own.now ∧ all.engine.flow user = own.engine.flow user ∧
          ∀ t, (storageCache.session? t user all.engine.world.sessions).1 =
            (storageCache.session? t user own.engine.world.sessions).1 := by
  have hm : m.SameFor user m := ⟨rfl, rfl, rfl⟩
  obtain ⟨hhistory, hafter⟩ := hm.history hcache course hvault
  refine ⟨hhistory, fun before hb => ?_⟩
  obtain ⟨hnow, hflow, hcell⟩ := hafter before hb
  refine ⟨hnow, hflow, fun t => ?_⟩
  rw [session?_cell, session?_cell, hcell]

/-- Two users side by side, with their sessions in a table.  The first one registers twice and is refused the second
time, with the other user and without. -/
theorem isolated_registrations :
    let settings : Settings := ⟨⟨60⟩, .never, 16⟩
    let env := Surroundings.plain storageCache (.registering ⟨"token"⟩)
    let m : Moment Storage (List String) := ⟨⟨0, by decide⟩, .start ⟨.table ∅, [], 0⟩⟩
    let course : List Happening := [.event ⟨5⟩ (.command .start), .event ⟨6⟩ (.command .start), .wait ⟨1⟩,
      .event ⟨5⟩ (.command .cancel), .event ⟨6⟩ (.text "key 123456"), .event ⟨5⟩ (.command .start)]
    let own := m.history settings env (course.filter (Happening.concerns ⟨5⟩))
    Undisturbed env.vault ⟨5⟩ m.engine.world.vault (m.history settings env course) ∧
      ((m.history settings env course).filter fun r => r.user = ⟨5⟩).map Handled.masked = own.map Handled.masked ∧
      own.flatMap Handled.exchanges = [⟨.register "5", .credentials ⟨"key", "secret"⟩⟩,
        ⟨.register "5", .failed .conflict⟩] := by
  intro settings env m course own
  have hcache : env.cache = storageCache := rfl
  have hvault : Undisturbed env.vault ⟨5⟩ m.engine.world.vault (m.history settings env course) := by decide
  exact ⟨hvault, (isolated settings hcache m ⟨5⟩ course hvault).1, by decide⟩

end VaultChat.Engine
