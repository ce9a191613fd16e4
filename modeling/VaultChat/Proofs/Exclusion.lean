import VaultChat.Proofs.Tallies

/-!
# Exclusion

No dialogue is split or lost, however the single steps of calls are mixed.  `Slots.Guarded` says that the calls of a
user share the slot that the map has for the user, and that this slot holds what was committed last.  Every step keeps
it (`Guarded.step`), so that every schedule is coherent (`coherent_follow`): a user has at most one call between
getting the lock and committing, a call reads what was committed last, and no slot is removed from under a dialogue or
a call.
-/

namespace VaultChat.Engine

open Chat Function

variable {σ τ : Type}

/-- The dialogue step that the user's latest commit has left. -/
def lastCommitted (user : UserId) (past : List (UserId × Flow)) : Flow :=
  past.foldl (fun flow e => if e.1 = user then e.2 else flow) .idle

theorem lastCommitted_concat (user : UserId) (past : List (UserId × Flow)) (e : UserId × Flow) :
    lastCommitted user (past ++ [e]) = if e.1 = user then e.2 else lastCommitted user past := by
  rw [lastCommitted, List.foldl_append]
  rfl

namespace Slots

/-- The phases of the calls. -/
def phase (m : Slots σ τ) (i : Nat) : Option Phase := (m.calls.find? i).map InFlight.phase

/-- The slots and the calls agree, the calls of a user are at the slot that the map has for the user, or leave the one
that they have removed, and this slot holds what the user has committed last. -/
structure Guarded (past : List (UserId × Flow)) (m : Slots σ τ) : Prop where
  tallies : ∀ s x, m.slots.find? s = some x → x.Tallies s m.phase
  slots : ∀ s, (∃ x, m.slots.find? s = some x) ↔ s < m.fresh
  handles : ∀ i c s, m.calls.find? i = some c → c.phase.handle? = some s → s < m.fresh
  users : ∀ user s, m.users.find? user = some s → s < m.fresh
  injective : ∀ user other s, m.users.find? user = some s → m.users.find? other = some s → user = other
  home : ∀ i c s, m.calls.find? i = some c → c.phase.handle? = some s →
    (∃ reply, c.phase = .leaving s reply) ∨ m.users.find? c.user = some s
  flow : ∀ user, m.flow user = lastCommitted user past

section

variable {settings : Settings} {env : Surroundings σ τ} {m m' : Slots σ τ} {i s : Nat} {c : InFlight} {x x' : Slot}
  {p : Phase} {past : List (UserId × Flow)}

theorem phase_of_call (hc : m.calls.find? i = some c) : m.phase i = some c.phase := by
  rw [phase, hc]
  rfl

theorem phase_of_calls (h : ∀ j, m'.calls.find? j = if j = i then some { c with phase := p } else m.calls.find? j) :
    m'.phase = update m.phase i (some p) := by
  funext j
  rw [phase, h, update_apply]
  split <;> rfl

theorem flow_of_changes (hm : Changes m m' i c s x') (husers : m'.users = m.users) (user : UserId) :
    m'.flow user = if m.users.find? user = some s then x'.flow else m.flow user := by
  rw [flow, flow, husers]
  cases m.users.find? user with
  | none => rfl
  | some k =>
    rw [Option.bind_some, Option.bind_some, hm.slots]
    by_cases hk : k = s
    · rw [if_pos hk, if_pos (congrArg some hk)]
      rfl
    · rw [if_neg hk, if_neg fun h => hk (Option.some.inj h)]

/-- The slots after a change of call `i` and slot `s`, which is now as it should be. -/
private theorem tallies_of_changes (h : m.Guarded past) (hc : m.calls.find? i = some c)
    (hm : Changes m m' i { c with phase := p } s x') (hold : ∀ k, c.phase.handle? = some k → k = s)
    (hnew : ∀ k, p.handle? = some k → k = s) (hx : x'.Tallies s m'.phase) (k : Nat) (y : Slot)
    (hk : m'.slots.find? k = some y) : y.Tallies k m'.phase := by
  rw [hm.slots] at hk
  split at hk
  · rename_i hks
    cases hk
    rw [hks]
    exact hx
  · rename_i hks
    rw [phase_of_calls hm.calls]
    exact (h.tallies k y hk).other (phase_of_call hc) (fun hp => hks (hold k hp)) fun hp => hks (hnew k hp)

private theorem slots_of_changes (h : m.Guarded past) (hm : Changes m m' i c s x') (hs : s < m.fresh)
    (hfresh : m'.fresh = m.fresh) (k : Nat) : (∃ y, m'.slots.find? k = some y) ↔ k < m'.fresh := by
  rw [hm.slots, hfresh]
  split
  · rename_i hks
    rw [hks]
    exact ⟨fun _ => hs, fun _ => ⟨x', rfl⟩⟩
  · exact h.slots k

private theorem handles_of_changes (h : m.Guarded past) (hm : Changes m m' i { c with phase := p } s x')
    (hnew : ∀ k, p.handle? = some k → k = s) (hs : s < m'.fresh) (hle : m.fresh ≤ m'.fresh) (j : Nat) (d : InFlight)
    (k : Nat) (hd : m'.calls.find? j = some d) (hk : d.phase.handle? = some k) : k < m'.fresh := by
  rw [hm.calls] at hd
  split at hd
  · cases hd
    rw [hnew k hk]
    exact hs
  · exact Nat.lt_of_lt_of_le (h.handles j d k hd hk) hle

/-- What a call does to its slot. -/
private theorem Guarded.act (h : m.Guarded past) (hc : m.calls.find? i = some c) (hs : m.slots.find? s = some x)
    (hfound : c.phase = .arriving → m.users.find? c.user = some s) (hact : Act settings i c s x p x')
    (hm : Changes m m' i { c with phase := p } s x') (husers : m'.users = m.users) (hfresh : m'.fresh = m.fresh) :
    m'.Guarded (past ++ (m.commit? i).toList) where
  tallies := by
    refine tallies_of_changes h hc hm (fun k => hact.handle_before) (fun k => hact.handle_after) ?_
    rw [phase_of_calls hm.calls]
    exact hact.tallies (h.tallies s x hs) (phase_of_call hc)
  slots := slots_of_changes h hm ((h.slots s).1 ⟨x, hs⟩) hfresh
  handles := by
    refine handles_of_changes h hm (fun k => hact.handle_after) ?_ (Nat.le_of_eq hfresh.symm)
    rw [hfresh]
    exact (h.slots s).1 ⟨x, hs⟩
  users := by
    rw [husers, hfresh]
    exact h.users
  injective := by
    rw [husers]
    exact h.injective
  home j d k hd hk := by
    rw [hm.calls] at hd
    rw [husers]
    split at hd
    · cases hd
      cases hact.handle_after hk
      rcases hact.stays hk with hl | ha | ⟨hh, hl⟩
      · exact .inl hl
      · exact .inr (hfound ha)
      · exact .inr ((h.home i c s hc hh).resolve_left fun ⟨reply, hr⟩ => hl reply hr)
    · exact h.home j d k hd hk
  flow user := by
    rw [flow_of_changes hm husers]
    rcases hact.flow with ⟨t, hp, hx⟩ | ⟨hp, hx⟩
    · have hu : m.users.find? c.user = some s := by
        refine (h.home i c s hc (by rw [hp]; rfl)).resolve_left ?_
        rw [hp]
        nofun
      rw [commit?_of_done hc hp, Option.toList_some, lastCommitted_concat, hx]
      by_cases huser : c.user = user
      · rw [if_pos huser, if_pos (huser ▸ hu)]
      · rw [if_neg huser, if_neg fun hs => huser (h.injective _ _ s hu hs)]
        exact h.flow user
    · rw [commit?_of_not_done hc hp, Option.toList_none, List.append_nil, ← h.flow user, hx]
      split
      · rename_i hu
        exact (flow_of_slot hu hs).symm
      · rfl

/-- A call makes a slot for its user, who has none. -/
private theorem Guarded.create (h : m.Guarded past) (hc : m.calls.find? i = some c) (hp : c.phase = .arriving)
    (hu : m.users.find? c.user = none)
    (hm : Changes m m' i { c with phase := .holding m.fresh } m.fresh ⟨.idle, none, [], 1⟩)
    (husers : m'.users = m.users.insert c.user m.fresh) (hfresh : m'.fresh = m.fresh + 1) :
    m'.Guarded (past ++ (m.commit? i).toList) where
  tallies := by
    have hnew : ∀ k, (Phase.holding m.fresh).handle? = some k → k = m.fresh := fun k hk => (Option.some.inj hk).symm
    refine tallies_of_changes h hc hm (by rw [hp]; nofun) hnew ?_
    refine .fresh (by rw [phase_of_calls hm.calls, update_self]) fun j q hq hk =>
      Classical.byContradiction fun hj => ?_
    -- No other call has a handle on a slot that is only now made.
    rw [phase_of_calls hm.calls, update_apply, if_neg hj] at hq
    obtain ⟨d, hd, rfl⟩ := Option.map_eq_some_iff.1 hq
    exact Nat.lt_irrefl _ (h.handles j d _ hd hk)
  slots k := by
    rw [hm.slots, hfresh]
    split
    · rename_i hk
      rw [hk]
      exact ⟨fun _ => Nat.lt_succ_self _, fun _ => ⟨_, rfl⟩⟩
    · rename_i hk
      rw [h.slots k]
      omega
  handles := by
    refine handles_of_changes h hm (fun k hk => (Option.some.inj hk).symm) ?_ ?_ <;> rw [hfresh]
    · exact Nat.lt_succ_self _
    · exact Nat.le_succ _
  users user k hk := by
    rw [husers, KeyMap.find?_insert] at hk
    rw [hfresh]
    split at hk
    · cases hk
      exact Nat.lt_succ_self _
    · exact Nat.lt_succ_of_lt (h.users user k hk)
  injective user other k hk hk' := by
    rw [husers, KeyMap.find?_insert] at hk hk'
    split at hk <;> split at hk'
    · rename_i hu hu'
      rw [hu, hu']
    · cases hk
      exact absurd (h.users other _ hk') (Nat.lt_irrefl _)
    · cases hk'
      exact absurd (h.users user _ hk) (Nat.lt_irrefl _)
    · exact h.injective user other k hk hk'
  home j d k hd hk := by
    rw [hm.calls] at hd
    rw [husers, KeyMap.find?_insert]
    split at hd
    · cases hd
      cases hk
      exact .inr (if_pos rfl)
    · refine (h.home j d k hd hk).imp id fun hd => ?_
      split
      · rename_i hdu
        rw [hdu, hu] at hd
        cases hd
      · exact hd
  flow user := by
    rw [commit?_of_not_done hc (by rw [hp]; nofun), Option.toList_none, List.append_nil, ← h.flow user]
    by_cases huser : user = c.user
    · have hmapped : m'.users.find? user = some m.fresh := by rw [husers, KeyMap.find?_insert, if_pos huser]
      rw [flow_of_slot hmapped hm.slot, huser, flow_of_none hu]
    · rw [Slots.flow, Slots.flow, husers, KeyMap.find?_insert, if_neg huser]
      cases hk : m.users.find? user with
      | none => rfl
      | some k =>
        have hlt := h.users user k hk
        rw [Option.bind_some, Option.bind_some, hm.slots, if_neg (by omega)]

/-- A call has nothing to look at. -/
private theorem Guarded.miss (h : m.Guarded past) (hc : m.calls.find? i = some c) (hp : c.phase = .arriving)
    (hm : m' = m.setPhase i c (.seen .idle)) : m'.Guarded (past ++ (m.commit? i).toList) := by
  have hcalls : ∀ j, m'.calls.find? j = if j = i then some { c with phase := .seen .idle } else m.calls.find? j := by
    rw [hm]
    exact fun j => find?_calls_setPhase ..
  have hrest : m'.slots = m.slots ∧ m'.users = m.users ∧ m'.fresh = m.fresh := by
    rw [hm]
    exact ⟨rfl, rfl, rfl⟩
  obtain ⟨hslots, husers, hfresh⟩ := hrest
  have hold : ∀ {j d k}, m'.calls.find? j = some d → d.phase.handle? = some k → m.calls.find? j = some d := by
    intro j d k hd hk
    rw [hcalls] at hd
    split at hd
    · cases hd
      cases hk
    · exact hd
  refine ⟨fun k y hy => ?_, ?_, fun j d k hd hk => ?_, ?_, ?_, fun j d k hd hk => ?_, fun user => ?_⟩
  · rw [hslots] at hy
    rw [phase_of_calls hcalls]
    exact (h.tallies k y hy).other (phase_of_call hc) (by rw [hp]; nofun) nofun
  · rw [hslots, hfresh]
    exact h.slots
  · rw [hfresh]
    exact h.handles j d k (hold hd hk) hk
  · rw [husers, hfresh]
    exact h.users
  · rw [husers]
    exact h.injective
  · rw [husers]
    exact h.home j d k (hold hd hk) hk
  · rw [commit?_of_not_done hc (by rw [hp]; nofun), Option.toList_none, List.append_nil, ← h.flow user, Slots.flow,
      Slots.flow, hslots, husers]

/-- A call removes the slot of its user. -/
private theorem Guarded.remove (settings : Settings) {reply : Reply} (h : m.Guarded past)
    (hc : m.calls.find? i = some c)
    (hp : c.phase = .committed s reply) (hu : m.users.find? c.user = some s) (hs : m.slots.find? s = some x)
    (hidle : x.flow = .idle) (hhandles : x.handles = 1)
    (hm : Changes m m' i { c with phase := .leaving s reply } s x) (husers : m'.users = m.users.erase c.user)
    (hfresh : m'.fresh = m.fresh) : m'.Guarded (past ++ (m.commit? i).toList) where
  tallies := by
    have hkeep : Act settings i c s x (.leaving s reply) x := .keep hp
    refine tallies_of_changes h hc hm (fun k => hkeep.handle_before) (fun k => hkeep.handle_after) ?_
    rw [phase_of_calls hm.calls]
    exact hkeep.tallies (h.tallies s x hs) (phase_of_call hc)
  slots := slots_of_changes h hm ((h.slots s).1 ⟨x, hs⟩) hfresh
  handles := by
    refine handles_of_changes h hm (fun k hk => (Option.some.inj hk).symm) ?_ (Nat.le_of_eq hfresh.symm)
    rw [hfresh]
    exact (h.slots s).1 ⟨x, hs⟩
  users user k hk := by
    rw [husers, KeyMap.find?_erase] at hk
    rw [hfresh]
    split at hk
    · cases hk
    · exact h.users user k hk
  injective user other k hk hk' := by
    rw [husers, KeyMap.find?_erase] at hk hk'
    split at hk <;> split at hk'
    · cases hk
    · cases hk
    · cases hk'
    · exact h.injective user other k hk hk'
  home j d k hd hk := by
    rw [hm.calls] at hd
    rw [husers, KeyMap.find?_erase]
    split at hd
    · cases hd
      cases hk
      exact .inl ⟨reply, rfl⟩
    · rename_i hj
      refine (h.home j d k hd hk).imp id fun hd' => ?_
      -- A second call of the user at this slot would have a second handle.
      have hne : d.user ≠ c.user := by
        intro hdu
        rw [hdu, hu] at hd'
        cases hd'
        have hi : c.phase.handle? = some s := by rw [hp]; rfl
        exact hj ((h.tallies s x hs).eq_of_handles hhandles (phase_of_call hc) hi (phase_of_call hd) hk)
      rw [if_neg hne]
      exact hd'
  flow user := by
    rw [commit?_of_not_done hc (by rw [hp]; nofun), Option.toList_none, List.append_nil, ← h.flow user]
    by_cases huser : user = c.user
    · have hnone : m'.users.find? user = none := by rw [husers, KeyMap.find?_erase, if_pos huser]
      rw [flow_of_none hnone, huser, flow_of_slot hu hs, hidle]
    · rw [Slots.flow, Slots.flow, husers, KeyMap.find?_erase, if_neg huser]
      cases m.users.find? user with
      | none => rfl
      | some k =>
        rw [Option.bind_some, Option.bind_some, hm.slots]
        split
        · rename_i hk
          rw [hk, hs]
        · rfl

/-- What a step of a guarded call can be. -/
theorem Guarded.step_cases (h : m.Guarded past) (hc : m.calls.find? i = some c)
    (hstep : m.step settings env i = some m') : Step settings m i c m' :=
  Slots.step_cases hc (fun s hs => (h.slots s).2 (h.handles i c s hc hs)) (fun s hs => (h.slots s).2 (h.users _ s hs))
    hstep

theorem exists_call_of_step (h : m.step settings env i = some m') : ∃ c, m.calls.find? i = some c := by
  cases hc : m.calls.find? i with
  | some c => exact ⟨c, rfl⟩
  | none => simp [step, hc] at h

/-- Every step keeps the slots guarded. -/
theorem Guarded.step (h : m.Guarded past) (hstep : m.step settings env i = some m') :
    m'.Guarded (past ++ (m.commit? i).toList) := by
  obtain ⟨c, hc⟩ := exists_call_of_step hstep
  cases h.step_cases hc hstep with
  | act hs hfound hact _ hm husers hfresh => exact h.act hc hs hfound hact hm husers hfresh
  | create hp _ hu hm husers hfresh => exact h.create hc hp hu hm husers hfresh
  | miss hp _ hm => exact h.miss hc hp hm
  | remove hp hu hs hidle hhandles _ hm husers hfresh =>
    exact h.remove settings hc hp hu hs hidle hhandles hm husers hfresh

end

theorem guarded_opening (w : World σ τ) (calls : List (UserId × Option Event)) : (opening w calls).Guarded [] where
  tallies := nofun
  slots s := ⟨nofun, fun hs => absurd hs (Nat.not_lt_zero s)⟩
  handles i c s hc hk := by
    rw [arriving_of_opening hc] at hk
    cases hk
  users := nofun
  injective := nofun
  home i c s hc hk := by
    rw [arriving_of_opening hc] at hk
    cases hk
  flow user := rfl

theorem guarded_follow (settings : Settings) (w : World σ τ) (calls : List (UserId × Option Event))
    (schedule : List (Surroundings σ τ × Nat)) :
    ((opening w calls).follow settings schedule).Guarded ((opening w calls).commits settings schedule) :=
  follow_induction (fun past m => m.Guarded past) (guarded_opening w calls) (fun _ _ _ _ _ h hstep => h.step hstep)
    schedule

/-! ### What calls can rely on -/

/-- Call `i` is the user's, and it works, or it has the lock of a slot, which need not be in the map. -/
def Inside (m : Slots σ τ) (user : UserId) (i : Nat) : Prop :=
  ∃ c s, m.calls.find? i = some c ∧ c.user = user ∧
    ((∃ p, c.phase = .working s p) ∨ ∃ x, m.slots.find? s = some x ∧ x.holder = some i)

/-- Dialogues are neither lost nor split, when these steps of dialogues have been committed so far. -/
structure Coherent (settings : Settings) (past : List (UserId × Flow)) (m : Slots σ τ) : Prop where
  /-- At most one call of a user is between getting the lock and committing. -/
  alone : ∀ user i j, m.Inside user i → m.Inside user j → i = j
  /-- A call that gets its turn reads what its user committed last. -/
  reads : ∀ env i m' c s, m.step settings env i = some m' → m.calls.find? i = some c → c.phase = .queued s →
    ∃ x, m.slots.find? s = some x ∧ x.flow = lastCommitted c.user past ∧
      m'.calls.find? i = some { c with phase := match c.event with
        | some event => .working s (respond settings c.user x.flow event)
        | none => .seen x.flow }
  /-- What is seen of a dialogue from outside is what its user committed last, also where there is no slot. -/
  flow : ∀ user, m.flow user = lastCommitted user past
  /-- A slot that is removed is idle and unlocked, and no other call has a handle on it. -/
  removes : ∀ env i m' user s, m.step settings env i = some m' → m.users.find? user = some s →
    m'.users.find? user ≠ some s → ∃ x, m.slots.find? s = some x ∧ x.flow = .idle ∧ x.holder = none ∧
      ∀ j c, j ≠ i → m.calls.find? j = some c → c.phase.handle? ≠ some s

section

variable {settings : Settings} {m : Slots σ τ} {past : List (UserId × Flow)}

/-- The lock of a call is that of its user's slot. -/
private theorem Guarded.of_inside (h : m.Guarded past) {user : UserId} {i : Nat} (hi : m.Inside user i) :
    ∃ s x, m.users.find? user = some s ∧ m.slots.find? s = some x ∧ x.holder = some i := by
  obtain ⟨c, s, hc, rfl, ⟨p, hp⟩ | ⟨x, hs, hh⟩⟩ := hi
  · have hhandle : c.phase.handle? = some s := by rw [hp]; rfl
    obtain ⟨x, hs⟩ := (h.slots s).2 (h.handles i c s hc hhandle)
    have hu := (h.home i c s hc hhandle).resolve_left (by rw [hp]; nofun)
    exact ⟨s, x, hu, hs, (h.tallies s x hs).worker i p (by rw [phase_of_call hc, hp])⟩
  · obtain ⟨q, hq, hline⟩ := (h.tallies s x hs).line?_of_holder hh
    rw [phase_of_call hc, Option.some.injEq] at hq
    subst hq
    refine ⟨s, x, (h.home i c s hc (Phase.handle?_of_line? hline)).resolve_left ?_, hs, hh⟩
    rintro ⟨reply, hr⟩
    rw [hr] at hline
    cases hline

private theorem Guarded.alone (h : m.Guarded past) {user : UserId} {i j : Nat} (hi : m.Inside user i)
    (hj : m.Inside user j) : i = j := by
  obtain ⟨s, x, hu, hs, hh⟩ := h.of_inside hi
  obtain ⟨s', x', hu', hs', hh'⟩ := h.of_inside hj
  cases hu.symm.trans hu'
  cases hs.symm.trans hs'
  exact Option.some.inj (hh.symm.trans hh')

private theorem Guarded.reads (h : m.Guarded past) {env : Surroundings σ τ} {i s : Nat} {m' : Slots σ τ}
    {c : InFlight} (hstep : m.step settings env i = some m') (hc : m.calls.find? i = some c)
    (hp : c.phase = .queued s) :
    ∃ x, m.slots.find? s = some x ∧ x.flow = lastCommitted c.user past ∧
      m'.calls.find? i = some { c with phase := match c.event with
        | some event => .working s (respond settings c.user x.flow event)
        | none => .seen x.flow } := by
  have hhandle : c.phase.handle? = some s := by rw [hp]; rfl
  have hu := (h.home i c s hc hhandle).resolve_left (by rw [hp]; nofun)
  cases h.step_cases hc hstep with
  | create ha | miss ha | remove ha =>
    rw [hp] at ha
    cases ha
  | @act k x p x' hs hfound hact _ hm =>
    have hk : s = k := hact.handle_before hhandle
    subst hk
    refine ⟨x, hs, by rw [← h.flow, flow_of_slot hu hs], ?_⟩
    cases hact with
    | begin _ _ he | look _ _ he =>
      rw [hm.call]
      simp only [he]
    | take ha | ask ha | advance ha | commit ha | keep ha | leave ha =>
      rw [hp] at ha
      cases ha

private theorem Guarded.removes (h : m.Guarded past) {env : Surroundings σ τ} {i s : Nat} {m' : Slots σ τ}
    {user : UserId} (hstep : m.step settings env i = some m') (hu : m.users.find? user = some s)
    (hu' : m'.users.find? user ≠ some s) : ∃ x, m.slots.find? s = some x ∧ x.flow = .idle ∧ x.holder = none ∧
      ∀ j c, j ≠ i → m.calls.find? j = some c → c.phase.handle? ≠ some s := by
  obtain ⟨c, hc⟩ := exists_call_of_step hstep
  cases h.step_cases hc hstep with
  | act _ _ _ _ _ husers =>
    rw [husers] at hu'
    exact absurd hu hu'
  | miss _ _ hm =>
    rw [hm] at hu'
    exact absurd hu hu'
  | create _ _ hnone _ husers =>
    rw [husers, KeyMap.find?_insert] at hu'
    split at hu'
    · rename_i huser
      rw [huser, hnone] at hu
      cases hu
    · exact absurd hu hu'
  | @remove k x reply hp huk hk hidle hhandles hfree _ husers =>
    rw [husers, KeyMap.find?_erase] at hu'
    split at hu'
    · rename_i huser
      rw [huser, huk] at hu
      cases hu
      refine ⟨x, hk, hidle, hfree, fun j d hj hd hhandle => hj ?_⟩
      exact (h.tallies s x hk).eq_of_handles hhandles (phase_of_call hc) (by rw [hp]; rfl) (phase_of_call hd) hhandle
    · exact absurd hu hu'

end

/-- However the steps of any number of calls are mixed, dialogues are neither lost nor split. -/
theorem coherent_follow (settings : Settings) (w : World σ τ) (calls : List (UserId × Option Event))
    (schedule : List (Surroundings σ τ × Nat)) :
    ((opening w calls).follow settings schedule).Coherent settings ((opening w calls).commits settings schedule) := by
  have h := guarded_follow settings w calls schedule
  exact {
    alone := fun _ _ _ hi hj => h.alone hi hj
    reads := fun _ _ _ _ _ hstep hc hp => h.reads hstep hc hp
    flow := h.flow
    removes := fun _ _ _ _ _ hstep hu hu' => h.removes hstep hu hu' }

end Slots

end VaultChat.Engine
