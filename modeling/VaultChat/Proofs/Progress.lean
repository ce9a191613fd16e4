import VaultChat.Proofs.SerialEquivalence

/-!
# Progress

Calls never wait for each other in a circle.  The first call that is not finished is yet to arrive or has the lock of
its slot, so that it can be brought to an end (`Underway.exists_finish`), and with one call after the other every
interleaving can be completed (`interleaving_completes`).
-/

namespace VaultChat.Engine

open Chat Session

variable {τ : Type} {env : Surroundings Storage τ}

namespace Occasion

/-- From `m` on, call `i` is brought to an end, and no other call changes. -/
structure Finishes (g : Occasion) (env : Surroundings Storage τ) (log : List Vault.Call)
    (m : Slots Storage (List Vault.Call × τ)) (i : Nat) (m' : Slots Storage (List Vault.Call × τ)) : Prop where
  reached : Slots.Interleaving g.settings env.recording m m'
  underway : g.Underway env log m'
  others : ∀ j ≠ i, m'.calls.find? j = m.calls.find? j
  finished : ∀ c, m'.calls.find? i = some c → ∃ reply, c.phase = .finished reply

namespace Underway

variable {g : Occasion} {log : List Vault.Call} {m m' : Slots Storage (List Vault.Call × τ)} {i : Nat} {user : UserId}
  {event : Event}

/-- A turn of one call keeps what there is to know, and the other calls. -/
theorem turn (h : g.Underway env log m) (hcache : env.cache = storageCache) (hvault : env.vault.OrderFree)
    (hnow : env.now = g.now) (ho : m.InOrder i) (ht : Slots.Turn g.settings env.recording i m m') :
    g.Underway env log m' ∧ ∀ j ≠ i, m'.calls.find? j = m.calls.find? j := by
  refine Slots.Turn.induction (P := fun m' => g.Underway env log m' ∧ ∀ j ≠ i, m'.calls.find? j = m.calls.find? j)
    (fun _ hm => hm.1.settled) (fun _ _ hm ho hmove => ?_) ⟨h, fun _ _ => rfl⟩ ho ht
  exact ⟨hm.1.keep hcache hvault hnow ho hmove, fun j hj => (hmove.others hj).trans (hm.2 j hj)⟩

variable (hcache : env.cache = storageCache) (hvault : env.vault.OrderFree) (hnow : env.now = g.now)
include hcache hvault hnow

private theorem exists_finish_of_arrived {phase : Phase} (h : g.Underway env log m)
    (hfirst : ∀ j < i, ∀ c, m.calls.find? j = some c → ∃ reply, c.phase = .finished reply)
    (hc : m.calls.find? i = some ⟨user, some event, phase⟩) (harrived : phase ≠ .arriving) :
    ∃ m', g.Finishes env log m i m' := by
  have hfinished : ∀ {m' : Slots Storage (List Vault.Call × τ)} {reply},
      m'.calls.find? i = some ⟨user, some event, .finished reply⟩ →
      ∀ c, m'.calls.find? i = some c → ∃ reply, c.phase = .finished reply := by
    intro m' reply hc' c hci
    rw [hc'] at hci
    cases hci
    exact ⟨reply, rfl⟩
  have hlast : (∃ m' reply, Slots.Turn g.settings env.recording i m m' ∧
      m'.calls.find? i = some ⟨user, some event, .finished reply⟩) → ∃ m', g.Finishes env log m i m' := by
    rintro ⟨m', reply, ht, hc'⟩
    have ho := Slots.inOrder_of_arrived hc harrived
    obtain ⟨h', hothers⟩ := h.turn hcache hvault hnow ho ht
    exact ⟨m', .turn (.refl m) i ho ht, h', hothers, hfinished hc'⟩
  have hphases : ∀ j < i, ∀ event, g.events[j]? = some (user, event) →
      ∃ reply, (m.view user).phase j = some (.finished reply) := by
    intro j hj event he
    obtain ⟨phase, hcj⟩ := h.exists_call he
    obtain ⟨reply, rfl⟩ := hfirst j hj _ hcj
    exact ⟨reply, Slots.view_phase hcj⟩
  have hview : some phase = (m.view user).phase i := (Slots.view_phase hc).symm
  rcases (h.standing user).phase_of_first (h.getElem?_events hc) hphases with
    ha | ⟨reply, hr⟩ | ⟨s, p, hw⟩ | ⟨s, x, hslot, hh, hq⟩
  · exact absurd (Option.some.inj (hview.trans ha)) harrived
  · cases hview.trans hr
    exact ⟨m, .refl m, h, fun _ _ => rfl, hfinished hc⟩
  · cases hview.trans hw
    exact hlast (Slots.exists_turn_of_working g.settings env.recording hc)
  · cases hview.trans hq
    exact hlast (Slots.exists_turn_of_queued g.settings env.recording hc (Slots.find?_of_view_slot hslot).2 hh)

/-- The first call that is not finished can be brought to an end. -/
theorem exists_finish (h : g.Underway env log m)
    (hfirst : ∀ j < i, ∀ c, m.calls.find? j = some c → ∃ reply, c.phase = .finished reply)
    (he : g.events[i]? = some (user, event)) :
    ∃ m', g.Finishes env log m i m' := by
  obtain ⟨phase, hc⟩ := h.exists_call he
  by_cases harrived : phase = .arriving
  · subst harrived
    have ho : m.InOrder i := by
      intro _ _ _ j hj c' hc' _ harriving
      obtain ⟨reply, hr⟩ := hfirst j hj c' hc'
      rw [harriving] at hr
      cases hr
    obtain ⟨m₁, ht⟩ := Slots.exists_turn_of_arriving g.settings env.recording hc
    obtain ⟨h₁, hothers₁⟩ := h.turn hcache hvault hnow ho ht
    obtain ⟨phase₁, hc₁⟩ := h₁.exists_call he
    -- After the turn the call rests, and a call that is yet to arrive does not.
    have harrived : phase₁ ≠ .arriving := by
      rintro rfl
      obtain ⟨_, _, c, hc, hrest⟩ := ht
      rw [hc₁] at hc
      cases hc
      cases hrest
    have hfirst₁ : ∀ j < i, ∀ c, m₁.calls.find? j = some c → ∃ reply, c.phase = .finished reply := by
      intro j hj c hcj
      rw [hothers₁ j (Nat.ne_of_lt hj)] at hcj
      exact hfirst j hj c hcj
    obtain ⟨m₂, h₂⟩ := h₁.exists_finish_of_arrived hcache hvault hnow hfirst₁ hc₁ harrived
    have hm₁ : Slots.Interleaving g.settings env.recording m m₁ := .turn (.refl m) i ho ht
    exact ⟨m₂, hm₁.trans h₂.reached, h₂.underway, fun j hj => (h₂.others j hj).trans (hothers₁ j hj), h₂.finished⟩
  · exact h.exists_finish_of_arrived hcache hvault hnow hfirst hc harrived

/-- All calls can be brought to an end, one after the other. -/
theorem exists_over (h : g.Underway env log m) :
    ∃ m', Slots.Interleaving g.settings env.recording m m' ∧ m'.Over := by
  suffices ∀ n ≤ g.events.length, ∃ m', Slots.Interleaving g.settings env.recording m m' ∧ g.Underway env log m' ∧
      ∀ j < n, ∀ c, m'.calls.find? j = some c → ∃ reply, c.phase = .finished reply by
    obtain ⟨m', hm', h', hfinished⟩ := this g.events.length (Nat.le_refl _)
    refine ⟨m', hm', fun i c hc => ?_⟩
    obtain ⟨event, he⟩ := h'.exists_event (Slots.view_phase hc)
    exact hfinished i (List.getElem?_eq_some_iff.1 he).1 c hc
  intro n hn
  induction n with
  | zero => exact ⟨m, .refl m, h, nofun⟩
  | succ n ih =>
    obtain ⟨m₁, hm₁, h₁, hfirst⟩ := ih (Nat.le_of_succ_le hn)
    obtain ⟨m₂, h₂⟩ := h₁.exists_finish hcache hvault hnow hfirst (List.getElem?_eq_getElem hn)
    refine ⟨m₂, hm₁.trans h₂.reached, h₂.underway, fun j hj c hc => ?_⟩
    by_cases hjn : j = n
    · rw [hjn] at hc
      exact h₂.finished c hc
    · rw [h₂.others j hjn] at hc
      exact hfirst j (by omega) c hc

end Underway

end Occasion

/-- Calls that interleave can all be brought to an end, however far they have come. -/
theorem interleaving_completes (settings : Settings) (events : List (UserId × Event))
    {m m' : Slots Storage (List Vault.Call × τ)} (hcache : env.cache = storageCache) (hvault : env.vault.OrderFree)
    (hm : m.AtRest) (h : Slots.Interleaving settings env.recording (m.gather events) m') :
    ∃ m'', Slots.Interleaving settings env.recording m' m'' ∧ m''.Over :=
  (hm.underway_of_interleaving hcache hvault h).exists_over hcache hvault rfl

end VaultChat.Engine
