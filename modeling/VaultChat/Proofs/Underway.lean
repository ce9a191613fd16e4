import VaultChat.Proofs.Occasion

/-!
# Calls under way

`Underway` is what every interleaving keeps: the slots belong to one user each, every user's calls stand as they
should (`Occasion.Standing`), and the calls that the vault has seen, with those that are still to come, are those of
all responses.  A move changes what belongs to the user of the moving call (`Slots.view`) and nothing that belongs to
others (`Underway.of_changes`).
-/

namespace VaultChat.Engine

open Chat Session

namespace Slots

variable {τ : Type}

/-! ### Views -/

section

variable {m m' : Slots Storage τ} {i s : Nat} {c : InFlight} {x : Slot} {user : UserId}

/-- What belongs to one user. -/
def view (m : Slots Storage τ) (user : UserId) : View where
  slot := (m.users.find? user).bind fun s => (m.slots.find? s).map fun x => (s, x)
  phase i := (m.calls.find? i).bind fun c => if c.user = user then some c.phase else none
  cell := m.world.sessions.cell user.sessionKey

theorem phase_view (m : Slots Storage τ) (user : UserId) (i : Nat) : (m.view user).phase i =
    (m.calls.find? i).bind fun c => if c.user = user then some c.phase else none := rfl

theorem cell_view (m : Slots Storage τ) (user : UserId) :
    (m.view user).cell = m.world.sessions.cell user.sessionKey := rfl

theorem slot_view (m : Slots Storage τ) (user : UserId) : (m.view user).slot =
    (m.users.find? user).bind fun s => (m.slots.find? s).map fun x => (s, x) := rfl

theorem view_phase (hc : m.calls.find? i = some c) : (m.view c.user).phase i = some c.phase := by
  rw [phase_view, hc]
  exact if_pos rfl

theorem view_slot (hu : m.users.find? user = some s) (hs : m.slots.find? s = some x) :
    (m.view user).slot = some (s, x) := by
  rw [slot_view, hu, Option.bind_some, hs]
  rfl

theorem find?_of_view_slot (h : (m.view user).slot = some (s, x)) :
    m.users.find? user = some s ∧ m.slots.find? s = some x := by
  rw [slot_view] at h
  obtain ⟨s', hu, hx⟩ := Option.bind_eq_some_iff.1 h
  obtain ⟨x', hs, he⟩ := Option.map_eq_some_iff.1 hx
  cases he
  exact ⟨hu, hs⟩

theorem view_phase_changes (h : Changes m m' i c s x) (hc : c.user = user) :
    (m'.view user).phase = changePhase (m.view user).phase i c.phase := by
  funext j
  rw [phase_view, h.calls, changePhase]
  by_cases hj : j = i
  · rw [if_pos hj, if_pos hj, Option.bind_some, if_pos hc]
  · rw [if_neg hj, if_neg hj, phase_view]

/-- What belongs to the user of the call that moves. -/
theorem view_changes (h : Changes m m' i c s x) (hc : c.user = user) (hu : m'.users.find? user = some s) :
    m'.view user =
      ⟨some (s, x), changePhase (m.view user).phase i c.phase, m'.world.sessions.cell user.sessionKey⟩ := by
  rw [← view_slot hu h.slot, ← view_phase_changes h hc]
  rfl

theorem view_eq (hu : m.users.find? user = some s) (hs : m.slots.find? s = some x) :
    m.view user = ⟨some (s, x), (m.view user).phase, m.world.sessions.cell user.sessionKey⟩ := by
  rw [← view_slot hu hs]
  rfl

theorem exists_of_view_phase {phase : Phase} (h : (m.view user).phase i = some phase) :
    ∃ c, m.calls.find? i = some c ∧ c.user = user ∧ c.phase = phase := by
  rw [phase_view] at h
  obtain ⟨c, hc, hphase⟩ := Option.bind_eq_some_iff.1 h
  by_cases hu : c.user = user
  · rw [if_pos hu] at hphase
    exact ⟨c, hc, hu, Option.some.inj hphase⟩
  · rw [if_neg hu] at hphase
    cases hphase

/-- What belongs to another user than the one of the call stays as it is. -/
theorem view_other {c₀ : InFlight} (h : Changes m m' i c s x) (hc₀ : m.calls.find? i = some c₀)
    (hu : c₀.user ≠ user) (hc : c.user ≠ user) (husers : m'.users.find? user = m.users.find? user)
    (hslot : m.users.find? user ≠ some s)
    (hcell : m'.world.sessions.cell user.sessionKey = m.world.sessions.cell user.sessionKey) :
    m'.view user = m.view user := by
  have hphase : (m'.view user).phase = (m.view user).phase := by
    funext j
    rw [phase_view, phase_view, h.calls]
    by_cases hj : j = i
    · rw [if_pos hj, hj, hc₀, Option.bind_some, Option.bind_some, if_neg hc, if_neg hu]
    · rw [if_neg hj]
  have hslot' : (m'.view user).slot = (m.view user).slot := by
    rw [slot_view, slot_view, husers]
    cases hs : m.users.find? user with
    | none => rfl
    | some s' =>
      have hne : s' ≠ s := fun he => hslot (by rw [hs, he])
      rw [Option.bind_some, Option.bind_some, h.slots, if_neg hne]
  show View.mk (m'.view user).slot (m'.view user).phase _ = View.mk (m.view user).slot (m.view user).phase _
  rw [hslot', hphase, hcell]

end

end Slots

/-! ### What interleavings keep -/

namespace Occasion

variable {τ : Type} (g : Occasion)

/-- The calls that belong to event `i`. -/
def total (i : Nat) : List Vault.Call := (g.events[i]?.map fun e => (g.response e.1 i e.2).calls).getD []

/-- The calls that call `i` has yet to make. -/
def pending (m : Slots Storage τ) (i : Nat) : List Vault.Call :=
  match m.calls.find? i with
  | some ⟨_, _, .finished _⟩ => []
  | some ⟨user, _, .working _ p⟩ => (p.alone g.now g.answers (m.world.sessions.cell user.sessionKey)).calls
  | _ => g.total i

structure Underway (env : Surroundings Storage τ) (log : List Vault.Call) (m : Slots Storage (List Vault.Call × τ)) :
    Prop where
  calls : ∀ i, (m.calls.find? i).map (fun c => (c.user, c.event)) = g.events[i]?.map fun e => (e.1, some e.2)
  slots : ∀ user s, m.users.find? user = some s → ∃ x, m.slots.find? s = some x
  injective : ∀ user other s, m.users.find? user = some s → m.users.find? other = some s → user = other
  fresh : ∀ user s, m.users.find? user = some s → s < m.fresh
  steady : env.vault.Answers m.world.vault.2 g.answers
  standing : ∀ user, g.Standing user (m.view user)
  record : (m.world.vault.1 ++ (List.range g.events.length).flatMap (g.pending m)).Perm
    (log ++ (List.range g.events.length).flatMap g.total)

private theorem perm_flatMap_range {α : Type} {n i : Nat} {f f' : Nat → List α} {made : List α} (hi : i < n)
    (hsame : ∀ j ≠ i, f' j = f j) (hmade : f i = made ++ f' i) :
    (made ++ (List.range n).flatMap f').Perm ((List.range n).flatMap f) := by
  obtain ⟨before, after, hrange⟩ := List.append_of_mem (List.mem_range.2 hi)
  have hnodup : (before ++ i :: after).Nodup := hrange ▸ List.nodup_range
  have hbefore : before.flatMap f' = before.flatMap f := by
    rw [List.flatMap_def, List.flatMap_def, List.map_congr_left fun j hj => hsame j ?_]
    rintro rfl
    exact (List.nodup_append.1 hnodup).2.2 j hj j List.mem_cons_self rfl
  have hafter : after.flatMap f' = after.flatMap f := by
    rw [List.flatMap_def, List.flatMap_def, List.map_congr_left fun j hj => hsame j ?_]
    rintro rfl
    exact (List.nodup_cons.1 (List.nodup_append.1 hnodup).2.1).1 hj
  rw [hrange, List.flatMap_append, List.flatMap_append, List.flatMap_cons, List.flatMap_cons, hbefore, hafter, hmade,
    List.append_assoc]
  exact List.perm_append_comm_assoc _ _ _

namespace Underway

variable {g : Occasion} {env : Surroundings Storage τ} {log : List Vault.Call}
  {m m' : Slots Storage (List Vault.Call × τ)} {i s : Nat} {user : UserId} {event : Event} {phase phase' : Phase}
  {x : Slot}

theorem getElem?_events (h : g.Underway env log m) (hc : m.calls.find? i = some ⟨user, some event, phase⟩) :
    g.events[i]? = some (user, event) := by
  have hcall := h.calls i
  rw [hc, Option.map_some] at hcall
  obtain ⟨e, he, hue⟩ := Option.map_eq_some_iff.1 hcall.symm
  cases hue
  exact he

theorem exists_event (h : g.Underway env log m) (hp : (m.view user).phase i = some phase) :
    ∃ event, g.events[i]? = some (user, event) := by
  obtain ⟨c, hc, rfl, -⟩ := Slots.exists_of_view_phase hp
  have hcall := h.calls i
  rw [hc, Option.map_some] at hcall
  obtain ⟨e, he, hue⟩ := Option.map_eq_some_iff.1 hcall.symm
  exact ⟨e.2, he.trans (congrArg some (Prod.ext (Prod.mk.inj hue).1 rfl))⟩

/-- It is enough to look at the user of the call that moves. -/
theorem of_changes (h : g.Underway env log m) (made : List Vault.Call)
    (hc : m.calls.find? i = some ⟨user, some event, phase⟩)
    (hchanges : Slots.Changes m m' i ⟨user, some event, phase'⟩ s x)
    (hothers : ∀ other ≠ user, m'.users.find? other = m.users.find? other ∧ m.users.find? other ≠ some s)
    (hown : m'.users.find? user = none ∨ m'.users.find? user = some s) (hfresh : m.fresh ≤ m'.fresh)
    (hs : s < m'.fresh)
    (hsteady : env.vault.Answers m'.world.vault.2 g.answers)
    (hcells : ∀ key ≠ user.sessionKey, m'.world.sessions.cell key = m.world.sessions.cell key)
    (hstanding : g.Standing user (m'.view user))
    (hworking : m'.world.sessions.cell user.sessionKey = m.world.sessions.cell user.sessionKey ∨
      ∀ j ≠ i, ∀ s p, (m.view user).phase j ≠ some (.working s p))
    (hrecord : m'.world.vault.1 = m.world.vault.1 ++ made) (hmade : g.pending m i = made ++ g.pending m' i) :
    g.Underway env log m' where
  calls j := by
    rw [hchanges.calls]
    by_cases hj : j = i
    · rw [if_pos hj, hj, ← h.calls i, hc]
      rfl
    · rw [if_neg hj, h.calls j]
  slots other s' hu := by
    rw [hchanges.slots]
    by_cases hs' : s' = s
    · exact ⟨x, if_pos hs'⟩
    · rw [if_neg hs']
      by_cases ho : other = user
      · subst ho
        rcases hown with hown | hown <;> rw [hown] at hu
        · cases hu
        · cases hu
          exact absurd rfl hs'
      · rw [(hothers other ho).1] at hu
        exact h.slots other s' hu
  injective := by
    -- The number of the changed slot belongs to the user of the call alone.
    have hnot : ∀ other ≠ user, ∀ s', m'.users.find? user = some s' → m'.users.find? other ≠ some s' := by
      intro other ho s' hu
      rw [(hothers other ho).1]
      rcases hown with hown | hown <;> rw [hown] at hu <;> cases hu
      exact (hothers other ho).2
    intro other other' s' hu hu'
    by_cases ho : other = user <;> by_cases ho' : other' = user
    · rw [ho, ho']
    · rw [ho] at hu
      exact absurd hu' (hnot other' ho' s' hu)
    · rw [ho'] at hu'
      exact absurd hu (hnot other ho s' hu')
    · rw [(hothers other ho).1] at hu
      rw [(hothers other' ho').1] at hu'
      exact h.injective other other' s' hu hu'
  fresh other s' hu := by
    by_cases ho : other = user
    · subst ho
      rcases hown with hown | hown <;> rw [hown] at hu
      · cases hu
      · cases hu
        exact hs
    · rw [(hothers other ho).1] at hu
      exact Nat.lt_of_lt_of_le (h.fresh other s' hu) hfresh
  steady := hsteady
  standing other := by
    by_cases ho : other = user
    · rw [ho]
      exact hstanding
    · rw [Slots.view_other hchanges hc (Ne.symm ho) (Ne.symm ho) (hothers other ho).1 (hothers other ho).2
        (hcells _ (UserId.sessionKey_ne ho))]
      exact h.standing other
  record := by
    have hi : i < g.events.length := (List.getElem?_eq_some_iff.1 (h.getElem?_events hc)).1
    -- What other calls have yet to make depends on the sessions of their users, which have not changed.
    have hsame : ∀ j ≠ i, g.pending m' j = g.pending m j := by
      intro j hj
      have hcall := hchanges.calls j
      rw [if_neg hj] at hcall
      rw [pending, pending, hcall]
      split
      · rfl
      · rename_i other ev s' p hother
        by_cases ho : other = user
        · subst ho
          rcases hworking with hcell | hworking
          · rw [hcell]
          · exact absurd (Slots.view_phase hother) (hworking j hj s' p)
        · rw [hcells _ (UserId.sessionKey_ne ho)]
      · rfl
    have hperm := perm_flatMap_range hi hsame hmade
    rw [hrecord, List.append_assoc]
    exact (List.Perm.append_left _ hperm).trans h.record

/-- A call that makes no request leaves the world as it is. -/
theorem of_changes_quiet (h : g.Underway env log m) (hc : m.calls.find? i = some ⟨user, some event, phase⟩)
    (hchanges : Slots.Changes m m' i ⟨user, some event, phase'⟩ s x)
    (hothers : ∀ other ≠ user, m'.users.find? other = m.users.find? other ∧ m.users.find? other ≠ some s)
    (hown : m'.users.find? user = none ∨ m'.users.find? user = some s) (hfresh : m.fresh ≤ m'.fresh)
    (hs : s < m'.fresh)
    (hworld : m'.world = m.world)
    (hstanding : g.Standing user ⟨(m'.view user).slot, changePhase (m.view user).phase i phase', (m.view user).cell⟩)
    (hpending : g.pending m i = g.pending m' i) : g.Underway env log m' := by
  have hsteady : env.vault.Answers m'.world.vault.2 g.answers := by
    rw [hworld]
    exact h.steady
  have hcell : ∀ key, m'.world.sessions.cell key = m.world.sessions.cell key := fun key => by rw [hworld]
  have hview : m'.view user =
      ⟨(m'.view user).slot, changePhase (m.view user).phase i phase', (m.view user).cell⟩ := by
    rw [Slots.cell_view, ← hcell, ← Slots.view_phase_changes hchanges rfl]
    rfl
  have hrecord : m'.world.vault.1 = m.world.vault.1 ++ [] := by rw [hworld, List.append_nil]
  exact h.of_changes [] hc hchanges hothers hown hfresh hs hsteady (fun key _ => hcell key) (hview ▸ hstanding)
    (.inl (hcell _)) hrecord hpending

theorem others_of_users (h : g.Underway env log m) (hu : m.users.find? user = some s) (husers : m'.users = m.users) :
    ∀ other ≠ user, m'.users.find? other = m.users.find? other ∧ m.users.find? other ≠ some s :=
  fun other ho => ⟨by rw [husers], fun hother => ho (h.injective other user s hother hu)⟩

theorem slot_of_phase (h : g.Underway env log m) (hc : m.calls.find? i = some ⟨user, some event, phase⟩)
    (hphase : phase = .queued s ∨ ∃ p, phase = .working s p) : m.users.find? user = some s := by
  have hview : some phase = (m.view user).phase i := (Slots.view_phase hc).symm
  rcases (h.standing user).phase_of (h.getElem?_events hc) with ha | ⟨reply, hr⟩ | ⟨s', x', hslot, hq | ⟨p', hw⟩⟩
  · have ha := hview.trans ha
    rcases hphase with rfl | ⟨p, rfl⟩ <;> cases ha
  · have hr := hview.trans hr
    rcases hphase with rfl | ⟨p, rfl⟩ <;> cases hr
  · have hq := hview.trans hq
    rcases hphase with rfl | ⟨p, rfl⟩ <;> cases hq
    exact (Slots.find?_of_view_slot hslot).1
  · have hw := hview.trans hw
    rcases hphase with rfl | ⟨p, rfl⟩ <;> cases hw
    exact (Slots.find?_of_view_slot hslot).1

/-- The calls that arrived before call `i` as the order of arrival asks. -/
theorem arrived (ho : m.InOrder i) (hc : m.calls.find? i = some ⟨user, some event, .arriving⟩) :
    ∀ j < i, ∀ event, g.events[j]? = some (user, event) → (m.view user).phase j ≠ some .arriving := by
  intro j hj _ _ hphase
  obtain ⟨c, hcall, hu, hp⟩ := Slots.exists_of_view_phase hphase
  exact ho _ hc rfl j hj c hcall hu hp

theorem enter (h : g.Underway env log m) (ho : m.InOrder i)
    (hc : m.calls.find? i = some ⟨user, some event, .arriving⟩) (hu : m.users.find? user = some s)
    (hs : m.slots.find? s = some x) (hchanges : Slots.Changes m m' i ⟨user, some event, .queued s⟩ s (x.take.ask i))
    (husers : m'.users = m.users) (hfresh : m'.fresh = m.fresh) (hworld : m'.world = m.world) :
    g.Underway env log m' := by
  have hu' : m'.users.find? user = some s := by rw [husers, hu]
  refine h.of_changes_quiet hc hchanges (h.others_of_users hu husers) (.inr hu') (Nat.le_of_eq hfresh.symm)
    (hfresh ▸ h.fresh user s hu) hworld ?_ ?_
  · rw [Slots.view_slot hu' hchanges.slot]
    have hstanding := h.standing user
    rw [Slots.view_eq hu hs] at hstanding
    exact hstanding.enter (h.getElem?_events hc) (Slots.view_phase hc) (arrived ho hc)
  · rw [pending, pending, hc, hchanges.call]

theorem create (h : g.Underway env log m) (ho : m.InOrder i)
    (hc : m.calls.find? i = some ⟨user, some event, .arriving⟩) (hu : m.users.find? user = none)
    (hchanges : Slots.Changes m m' i ⟨user, some event, .queued m.fresh⟩ m.fresh ⟨.idle, some i, [], 1⟩)
    (husers : m'.users = m.users.insert user m.fresh) (hfresh : m'.fresh = m.fresh + 1)
    (hworld : m'.world = m.world) : g.Underway env log m' := by
  have hu' : m'.users.find? user = some m.fresh := by rw [husers, KeyMap.find?_insert, if_pos rfl]
  refine h.of_changes_quiet hc hchanges (fun other ho => ⟨?_, fun hother => ?_⟩) (.inr hu') (by omega) (by omega)
    hworld ?_ ?_
  · rw [husers, KeyMap.find?_insert, if_neg ho]
  · exact Nat.lt_irrefl _ (h.fresh other _ hother)
  · rw [Slots.view_slot hu' hchanges.slot]
    have hslot : (m.view user).slot = none := by rw [Slots.slot_view, hu, Option.bind_none]
    have hstanding : g.Standing user ⟨(m.view user).slot, (m.view user).phase, (m.view user).cell⟩ := h.standing user
    rw [hslot] at hstanding
    exact hstanding.create (h.getElem?_events hc) (Slots.view_phase hc) (arrived ho hc)
  · rw [pending, pending, hc, hchanges.call]

theorem begin (h : g.Underway env log m) (hc : m.calls.find? i = some ⟨user, some event, .queued s⟩)
    (hs : m.slots.find? s = some x) (hh : x.holder = some i)
    (hchanges : Slots.Changes m m' i ⟨user, some event, .working s (respond g.settings user x.flow event)⟩ s x)
    (husers : m'.users = m.users) (hfresh : m'.fresh = m.fresh) (hworld : m'.world = m.world) :
    g.Underway env log m' := by
  have hu := h.slot_of_phase hc (.inl rfl)
  have hu' : m'.users.find? user = some s := by rw [husers, hu]
  have hstanding := h.standing user
  rw [Slots.view_eq hu hs] at hstanding
  obtain ⟨hbegun, hcalls⟩ := hstanding.begin (h.getElem?_events hc) (Slots.view_phase hc) hh
  refine h.of_changes_quiet hc hchanges (h.others_of_users hu husers) (.inr hu') (Nat.le_of_eq hfresh.symm)
    (hfresh ▸ h.fresh user s hu) hworld ?_ ?_
  · rw [Slots.view_slot hu' hchanges.slot]
    exact hbegun
  · rw [pending, pending, hc, hchanges.call, hworld]
    show g.total i = _
    rw [total, h.getElem?_events hc]
    exact hcalls.symm

theorem advance (h : g.Underway env log m) (hcache : env.cache = storageCache) (hvault : env.vault.OrderFree)
    (hnow : env.now = g.now) {p : Procedure Transition}
    (hc : m.calls.find? i = some ⟨user, some event, .working s p⟩) (hs : m.slots.find? s = some x)
    (hp : ∀ t, p ≠ .done t)
    (hchanges : Slots.Changes m m' i ⟨user, some event, .working s (p.advance env.recording m.world).1⟩ s x)
    (husers : m'.users = m.users) (hfresh : m'.fresh = m.fresh)
    (hworld : m'.world = (p.advance env.recording m.world).2) : g.Underway env log m' := by
  have hu := h.slot_of_phase hc (.inr ⟨p, rfl⟩)
  have hu' : m'.users.find? user = some s := by rw [husers, hu]
  have he := h.getElem?_events hc
  have hstanding := h.standing user
  rw [Slots.view_eq hu hs] at hstanding
  obtain ⟨n, rest, flow, flow', stage, -, -, -, hconduct, -⟩ := hstanding.of_working he (Slots.view_phase hc)
  obtain ⟨made, hadvance⟩ := hconduct.advance_alone hp hcache hvault h.steady
  rw [← hworld] at hadvance
  have hown := hadvance.own
  rw [hnow] at hown
  refine h.of_changes made hc hchanges (h.others_of_users hu husers) (.inr hu') (Nat.le_of_eq hfresh.symm)
    (hfresh ▸ h.fresh user s hu) hadvance.steady hadvance.others ?_ (.inr ?_) hadvance.record ?_
  · rw [Slots.view_changes hchanges rfl hu']
    have hresult := congrArg Alone.result hown
    have hcell := congrArg Alone.cell hown
    refine hstanding.advance he (Slots.view_phase hc) (fun flow stage hconduct => ?_) hresult hcell
    obtain ⟨_, hadvance⟩ := hconduct.advance_alone hp hcache hvault h.steady
    exact hadvance.conduct
  · -- No other call of the user works, so none is affected by what becomes of the user's session.
    intro j hj s' p' hphase
    obtain ⟨event', he'⟩ := h.exists_event hphase
    exact hj (hstanding.eq_of_working he (Slots.view_phase hc) he' hphase)
  · rw [pending, pending, hc, hchanges.call]
    exact (congrArg Alone.calls hown).symm

theorem finish (h : g.Underway env log m) {t : Transition}
    (hc : m.calls.find? i = some ⟨user, some event, .working s (.done t)⟩) (hu : m.users.find? user = some s)
    (hs : m.slots.find? s = some x)
    (hchanges : Slots.Changes m m' i ⟨user, some event, .finished t.reply⟩ s { x with flow := t.next }.unlock.drop)
    (husers : m'.users = if t.next = .idle ∧ x.handles = 1 ∧ x.waiting = [] then m.users.erase user else m.users)
    (hfresh : m'.fresh = m.fresh) (hworld : m'.world = m.world) : g.Underway env log m' := by
  have hstanding := h.standing user
  rw [Slots.view_eq hu hs] at hstanding
  have hfinished := hstanding.finish (h.getElem?_events hc) (Slots.view_phase hc)
  have hothers : ∀ other ≠ user, m'.users.find? other = m.users.find? other ∧ m.users.find? other ≠ some s := by
    intro other ho
    refine ⟨?_, fun hother => ho (h.injective other user s hother hu)⟩
    rw [husers]
    split
    · rw [KeyMap.find?_erase, if_neg ho]
    · rfl
  have hown : m'.users.find? user = if t.next = .idle ∧ x.handles = 1 ∧ x.waiting = [] then none else some s := by
    rw [husers]
    split
    · rw [KeyMap.find?_erase, if_pos rfl]
    · exact hu
  refine h.of_changes_quiet hc hchanges hothers ?_ (Nat.le_of_eq hfresh.symm) (hfresh ▸ h.fresh user s hu) hworld
    ?_ ?_
  · rw [hown]
    split
    · exact .inl rfl
    · exact .inr rfl
  · have hslot : (m'.view user).slot = if t.next = .idle ∧ x.handles = 1 ∧ x.waiting = [] then none
        else some (s, { x with flow := t.next }.unlock.drop) := by
      rw [Slots.slot_view, hown]
      split
      · rfl
      · rw [Option.bind_some, hchanges.slot]
        rfl
    rw [hslot]
    exact hfinished
  · rw [pending, pending, hc, hchanges.call]
    rfl

/-- Every move keeps what there is to know. -/
theorem keep (h : g.Underway env log m) (hcache : env.cache = storageCache) (hvault : env.vault.OrderFree)
    (hnow : env.now = g.now) (ho : m.InOrder i) (hmove : Slots.Move g.settings env.recording m i m') :
    g.Underway env log m' := by
  cases hmove with
  | enter hc hu hs hchanges husers hfresh hworld => exact h.enter ho hc hu hs hchanges husers hfresh hworld
  | create hc hu hchanges husers hfresh hworld => exact h.create ho hc hu hchanges husers hfresh hworld
  | begin hc hs hh hchanges husers hfresh hworld => exact h.begin hc hs hh hchanges husers hfresh hworld
  | advance hc hs hp hchanges husers hfresh hworld =>
    exact h.advance hcache hvault hnow hc hs hp hchanges husers hfresh hworld
  | finish hc hu hs hchanges husers hfresh hworld => exact h.finish hc hu hs hchanges husers hfresh hworld

theorem settled (h : g.Underway env log m) : m.Settled where
  slots := h.slots
  calls j c hc := by
    have hcall := h.calls j
    rw [hc, Option.map_some] at hcall
    obtain ⟨e, he, hue⟩ := Option.map_eq_some_iff.1 hcall.symm
    obtain ⟨user, event, phase⟩ := c
    cases hue
    refine ⟨e.2, rfl, ?_⟩
    have hview : some phase = (m.view e.1).phase j := (Slots.view_phase hc).symm
    rcases (h.standing e.1).phase_of he with ha | ⟨reply, hr⟩ | ⟨s, x, hslot, hq | ⟨p, hw⟩⟩
    · exact .inl (Option.some.inj (hview.trans ha))
    · exact .inr (.inl ⟨reply, Option.some.inj (hview.trans hr)⟩)
    · exact .inr (.inr ⟨s, (Slots.find?_of_view_slot hslot).1, .inl (Option.some.inj (hview.trans hq))⟩)
    · exact .inr (.inr ⟨s, (Slots.find?_of_view_slot hslot).1, .inr ⟨p, Option.some.inj (hview.trans hw)⟩⟩)

end Underway

end Occasion

end VaultChat.Engine
