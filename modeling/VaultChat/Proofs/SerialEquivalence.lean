import VaultChat.Engine.Gathering
import VaultChat.Proofs.Underway

/-!
# Serial equivalence

Events handled at once are handled as if they had been handled one after the other.  The invariant `Occasion.Underway`
holds when the events arrive at slots at rest (`AtRest.underway`), every move keeps it, and once all calls are
finished nothing is to come, so that `interleaving_serial` can compare what is left with `handleAll`.
-/

namespace VaultChat.Engine

open Chat Session

def Phase.isFinished : Phase → Bool
  | .finished _ => true
  | _ => false

namespace Slots

variable {σ τ : Type}

/-- No call is in flight, and exactly the users in a dialogue have a slot, each one of their own. -/
structure AtRest (m : Slots σ τ) : Prop where
  slot : ∀ user s, m.users.find? user = some s → ∃ flow, flow ≠ .idle ∧ m.slots.find? s = some ⟨flow, none, [], 0⟩
  injective : ∀ user other s, m.users.find? user = some s → m.users.find? other = some s → user = other
  fresh : ∀ user s, m.users.find? user = some s → s < m.fresh
  calls : ∀ i c, m.calls.find? i = some c → (∃ reply, c.phase = .finished reply) ∨ ∃ flow, c.phase = .seen flow

/-- A call for every event, numbered in the order of the events. -/
def gather (events : List (UserId × Event)) (m : Slots σ τ) : Slots σ τ :=
  { m with calls := events.zipIdx.foldl (fun calls p => calls.insert p.2 ⟨p.1.1, some p.1.2, .arriving⟩) ∅ }

/-- Every call is finished. -/
def Over (m : Slots σ τ) : Prop := ∀ i c, m.calls.find? i = some c → ∃ reply, c.phase = .finished reply

theorem find?_calls_gather (events : List (UserId × Event)) (m : Slots σ τ) (i : Nat) :
    (m.gather events).calls.find? i = events[i]?.map fun e => ⟨e.1, some e.2, .arriving⟩ := by
  suffices ∀ k (calls : KeyMap Nat InFlight),
      ((events.zipIdx k).foldl (fun calls p => calls.insert p.2 ⟨p.1.1, some p.1.2, .arriving⟩) calls).find? i =
        if k ≤ i ∧ i < k + events.length then events[i - k]?.map fun e => ⟨e.1, some e.2, .arriving⟩
        else calls.find? i by
    rw [gather, this 0 ∅, KeyMap.find?_empty]
    split
    · rfl
    · rename_i h
      rw [List.getElem?_eq_none (by omega)]
      rfl
  induction events with
  | nil =>
    intro k calls
    rw [if_neg (by simp only [List.length_nil]; omega)]
    rfl
  | cons e events ih =>
    intro k calls
    -- The calls after the first one have larger numbers and leave it in place.
    rw [List.zipIdx_cons, List.foldl_cons, ih, KeyMap.find?_insert]
    by_cases hik : i = k
    · subst hik
      rw [if_neg (by omega), if_pos rfl, if_pos (by rw [List.length_cons]; omega), Nat.sub_self]
      rfl
    · simp only [List.length_cons, if_neg hik]
      by_cases h : k + 1 ≤ i ∧ i < k + 1 + events.length
      · rw [if_pos h, if_pos (by omega), show i - k = (i - (k + 1)) + 1 by omega, List.getElem?_cons_succ]
      · rw [if_neg h, if_neg (by omega)]

theorem Over.of_pairs {m : Slots σ τ} (h : m.calls.pairs.all (·.2.phase.isFinished) = true) : m.Over := by
  intro i c hc
  obtain ⟨p, hp, rfl⟩ := Option.map_eq_some_iff.1 hc
  have hfinished := List.all_eq_true.1 h p (List.mem_of_find?_eq_some hp)
  cases hphase : p.2.phase with
  | finished reply => exact ⟨reply, rfl⟩
  | arriving | holding | queued | working | committed | leaving | seen =>
    rw [hphase] at hfinished
    cases hfinished

theorem flow_view {m : Slots Storage τ} (user : UserId) :
    m.flow user = ((m.view user).slot.map fun x => x.2.flow).getD .idle := by
  rw [flow, slot_view]
  cases m.users.find? user with
  | none => rfl
  | some s =>
    rw [Option.bind_some, Option.bind_some, Option.map_map]
    rfl

theorem AtRest.flow_of_some {m : Slots σ τ} (h : m.AtRest) {user : UserId} {s : Nat}
    (hu : m.users.find? user = some s) :
    m.flow user ≠ .idle ∧ m.slots.find? s = some ⟨m.flow user, none, [], 0⟩ := by
  obtain ⟨flow, htalk, hs⟩ := h.slot user s hu
  have hflow : m.flow user = flow := by
    rw [Slots.flow, hu, Option.bind_some, hs]
    rfl
  rw [hflow]
  exact ⟨htalk, hs⟩

theorem AtRest.isSome_iff {m : Slots σ τ} (h : m.AtRest) (user : UserId) :
    (m.users.find? user).isSome = true ↔ m.flow user ≠ .idle := by
  cases hu : m.users.find? user with
  | none => exact ⟨nofun, fun h => absurd (flow_of_none hu) h⟩
  | some s => exact ⟨fun _ => (h.flow_of_some hu).1, fun _ => rfl⟩

theorem flow_toEngine (m : Slots σ τ) (user : UserId) : m.toEngine.flow user = m.flow user := by
  have hfold : ∀ (keys : List UserId) (flows : KeyMap UserId Flow),
      (keys.foldl (fun flows u => flows.insert u (m.flow u)) flows).find? user =
        if user ∈ keys then some (m.flow user) else flows.find? user := by
    intro keys
    induction keys with
    | nil => exact fun _ => rfl
    | cons key keys ih =>
      intro flows
      rw [List.foldl_cons, ih, KeyMap.find?_insert]
      by_cases hmem : user ∈ keys
      · rw [if_pos hmem, if_pos (List.mem_cons_of_mem _ hmem)]
      · by_cases hkey : user = key
        · rw [if_neg hmem, if_pos hkey, if_pos (List.mem_cons.2 (.inl hkey)), hkey]
        · rw [if_neg hmem, if_neg hkey, if_neg fun h => (List.mem_cons.1 h).elim hkey hmem]
  rw [Engine.flow, toEngine, hfold]
  split
  · rfl
  · rename_i hmem
    have hu : m.users.find? user = none := by
      rw [← Option.not_isSome_iff_eq_none, KeyMap.find?_isSome_iff]
      exact hmem
    exact (flow_of_none hu).symm

/-! ### Slots of an engine -/

/-- One more user is in a dialogue. -/
def seat (m : Slots σ τ) (p : UserId × Flow) : Slots σ τ :=
  { m with
    users := m.users.insert p.1 m.fresh
    slots := m.slots.insert m.fresh ⟨p.2, none, [], 0⟩
    fresh := m.fresh + 1 }

theorem AtRest.seat {m : Slots σ τ} (h : m.AtRest) {p : UserId × Flow} (hp : p.2 ≠ .idle) : (m.seat p).AtRest where
  slot user s hu := by
    rw [Slots.seat, KeyMap.find?_insert] at hu
    rw [Slots.seat, KeyMap.find?_insert]
    split at hu
    · cases hu
      exact ⟨p.2, hp, if_pos rfl⟩
    · rw [if_neg (Nat.ne_of_lt (h.fresh user s hu))]
      exact h.slot user s hu
  injective user other s hu ho := by
    rw [Slots.seat, KeyMap.find?_insert] at hu ho
    split at hu <;> split at ho
    · rename_i hu' ho'
      rw [hu', ho']
    · cases hu
      exact absurd (h.fresh other _ ho) (Nat.lt_irrefl _)
    · cases ho
      exact absurd (h.fresh user _ hu) (Nat.lt_irrefl _)
    · exact h.injective user other s hu ho
  fresh user s hu := by
    rw [Slots.seat, KeyMap.find?_insert] at hu
    split at hu
    · cases hu
      exact Nat.lt_succ_self _
    · exact Nat.lt_succ_of_lt (h.fresh user s hu)
  calls := h.calls

theorem AtRest.flow_seat {m : Slots σ τ} (h : m.AtRest) (p : UserId × Flow) (user : UserId) :
    (m.seat p).flow user = if user = p.1 then p.2 else m.flow user := by
  rw [Slots.flow, Slots.flow, Slots.seat, KeyMap.find?_insert]
  split
  · rw [Option.bind_some, KeyMap.find?_insert, if_pos rfl]
    rfl
  · cases hu : m.users.find? user with
    | none => rfl
    | some s =>
      rw [Option.bind_some, Option.bind_some, KeyMap.find?_insert, if_neg (Nat.ne_of_lt (h.fresh user s hu))]

/-- The slots of an engine are at rest, and they have its dialogues. -/
theorem atRest_ofEngine {e : Engine σ τ} (he : ∀ p ∈ e.flows.pairs, p.2 ≠ .idle) :
    (ofEngine e).AtRest ∧ ∀ user, (ofEngine e).flow user = e.flow user := by
  have hseats : ∀ (ps : List (UserId × Flow)) (m : Slots σ τ), (∀ p ∈ ps, p.2 ≠ .idle) → (ps.map Prod.fst).Nodup →
      m.AtRest → (ps.foldl seat m).AtRest ∧ ∀ user, (ps.foldl seat m).flow user =
        ((ps.find? fun p => p.1 == user).map Prod.snd).getD (m.flow user) := by
    intro ps
    induction ps with
    | nil => exact fun m _ _ hm => ⟨hm, fun _ => rfl⟩
    | cons p ps ih =>
      intro m hps hnodup hm
      obtain ⟨hmem, hnodup⟩ := List.nodup_cons.1 hnodup
      obtain ⟨hrest, hflow⟩ := ih (m.seat p) (fun q hq => hps q (List.mem_cons_of_mem _ hq)) hnodup
        (hm.seat (hps p List.mem_cons_self))
      refine ⟨hrest, fun user => (hflow user).trans ?_⟩
      rw [hm.flow_seat, List.find?_cons]
      by_cases hu : user = p.1
      · have hnone : (ps.find? fun q => q.1 == user) = none := by
          rw [List.find?_eq_none]
          intro q hq hqu
          exact hmem (List.mem_map.2 ⟨q, hq, (eq_of_beq hqu).trans hu⟩)
        rw [hnone, if_pos hu, hu, beq_self_eq_true]
        rfl
      · rw [if_neg hu, beq_false_of_ne (Ne.symm hu)]
  exact hseats e.flows.pairs ⟨∅, ∅, 0, ∅, e.world⟩ he e.flows.nodup ⟨nofun, nofun, nofun, nofun⟩

/-! ### The events arrive -/

/-- The events, and what they meet at slots at rest. -/
def occasion (settings : Settings) (env : Surroundings Storage τ) (events : List (UserId × Event))
    (m : Slots Storage (List Vault.Call × τ)) : Occasion where
  settings := settings
  now := env.now
  answers c := (env.vault.respond c m.world.vault.2).1
  start user := ⟨m.flow user, m.world.sessions.cell user.sessionKey⟩
  events := events

section

variable {m : Slots Storage (List Vault.Call × τ)} (settings : Settings) (env : Surroundings Storage τ)
  (events : List (UserId × Event))

/-- No call has arrived, and the users are where they start. -/
theorem AtRest.standing (h : m.AtRest) (user : UserId) :
    (m.occasion settings env events).Standing user ((m.gather events).view user) := by
  have hplaced : (m.occasion settings env events).Placed user 0 [] ((m.gather events).view user).phase := by
    refine ⟨.nil, nofun, fun i _ _ hi => absurd hi (Nat.not_lt_zero i), fun i event he _ _ => ⟨?_, nofun⟩⟩
    have hc := find?_calls_gather events m i
    rw [show events[i]? = some (user, event) from he] at hc
    exact view_phase hc
  cases hu : m.users.find? user with
  | none =>
    have hview : (m.gather events).view user = ⟨none, ((m.gather events).view user).phase,
        m.world.sessions.cell user.sessionKey⟩ := by
      show View.mk ((m.users.find? user).bind _) _ _ = _
      rw [hu]
      rfl
    rw [hview]
    exact .away hplaced (flow_of_none hu)
  | some s =>
    obtain ⟨htalk, hs⟩ := h.flow_of_some hu
    rw [view_eq (m := m.gather events) hu hs]
    exact .talking hplaced htalk

theorem AtRest.underway (h : m.AtRest) :
    (m.occasion settings env events).Underway env m.world.vault.1 (m.gather events) where
  calls i := by
    rw [find?_calls_gather, Option.map_map]
    rfl
  slots _ _ hu := ⟨_, (h.flow_of_some hu).2⟩
  injective := h.injective
  fresh := h.fresh
  steady _ := rfl
  standing := h.standing settings env events
  record := by
    have hpending : (m.occasion settings env events).pending (m.gather events) =
        (m.occasion settings env events).total := by
      funext i
      rw [Occasion.pending, find?_calls_gather]
      cases events[i]? <;> rfl
    rw [hpending]
    exact .refl _

variable {settings env events}

theorem AtRest.underway_of_interleaving {m' : Slots Storage (List Vault.Call × τ)} (hm : m.AtRest)
    (hcache : env.cache = storageCache) (hvault : env.vault.OrderFree)
    (h : Interleaving settings env.recording (m.gather events) m') :
    (m.occasion settings env events).Underway env m.world.vault.1 m' :=
  h.induction (fun _ hu => hu.settled) (fun _ _ _ hu ho hmove => hu.keep hcache hvault rfl ho hmove)
    (hm.underway settings env events)

end

end Slots

/-! ### When all calls are finished -/

namespace Occasion

variable {τ : Type} {g : Occasion} {env : Surroundings Storage τ} {log : List Vault.Call}
  {m : Slots Storage (List Vault.Call × τ)}

namespace Underway

theorem exists_call (h : g.Underway env log m) {i : Nat} {user : UserId} {event : Event}
    (he : g.events[i]? = some (user, event)) : ∃ phase, m.calls.find? i = some ⟨user, some event, phase⟩ := by
  have hcall := h.calls i
  rw [he, Option.map_some] at hcall
  obtain ⟨⟨_, _, phase⟩, hc, hue⟩ := Option.map_eq_some_iff.1 hcall
  cases hue
  exact ⟨phase, hc⟩

theorem when_over (h : g.Underway env log m) (hover : m.Over) (user : UserId) :
    g.Placed user g.events.length [] (m.view user).phase ∧
      (m.view user).cell = (g.personal user g.events.length).cell ∧
      if (g.personal user g.events.length).flow = .idle then (m.view user).slot = none
      else ∃ s, (m.view user).slot = some (s, ⟨(g.personal user g.events.length).flow, none, [], 0⟩) := by
  refine (h.standing user).when_over fun i event he => ?_
  obtain ⟨phase, hc⟩ := h.exists_call he
  obtain ⟨reply, rfl⟩ := hover i _ hc
  exact ⟨reply, Slots.view_phase hc⟩

theorem flow_over (h : g.Underway env log m) (hover : m.Over) (user : UserId) :
    m.flow user = (g.personal user g.events.length).flow := by
  have hslot := (h.when_over hover user).2.2
  rw [Slots.flow_view]
  split at hslot
  · rename_i hidle
    rw [hslot, hidle]
    rfl
  · obtain ⟨s, hslot⟩ := hslot
    rw [hslot]
    rfl

theorem atRest (h : g.Underway env log m) (hover : m.Over) : m.AtRest where
  slot user s hu := by
    obtain ⟨x, hs⟩ := h.slots user s hu
    have hslot := (h.when_over hover user).2.2
    rw [Slots.view_slot hu hs] at hslot
    split at hslot
    · cases hslot
    · rename_i htalk
      obtain ⟨_, hslot⟩ := hslot
      cases hslot
      exact ⟨_, htalk, hs⟩
  injective := h.injective
  fresh := h.fresh
  calls i c hc := .inl (hover i c hc)

theorem replyOf_over (h : g.Underway env log m) (hover : m.Over) {i : Nat} {user : UserId} {event : Event}
    (he : g.events[i]? = some (user, event)) :
    (m.replyOf i).masked event = (g.response user i event).result.reply.masked event := by
  have hi : i < g.events.length := (List.getElem?_eq_some_iff.1 he).1
  obtain ⟨reply, hphase, hreply⟩ := (h.when_over hover user).1.finished i event he hi
  obtain ⟨c, hc, -, hp⟩ := Slots.exists_of_view_phase hphase
  rw [Slots.replyOf, hc, Option.map_some, hp]
  exact hreply

theorem record_over (h : g.Underway env log m) (hover : m.Over) :
    m.world.vault.1.Perm (log ++ (List.range g.events.length).flatMap g.total) := by
  have hpending : ∀ i ∈ List.range g.events.length, g.pending m i = [] := by
    intro i hi
    obtain ⟨phase, hc⟩ := h.exists_call (List.getElem?_eq_getElem (List.mem_range.1 hi))
    obtain ⟨reply, rfl⟩ := hover i _ hc
    rw [pending, hc]
  have hrecord := h.record
  rw [List.flatMap_eq_nil_iff.2 hpending, List.append_nil] at hrecord
  exact hrecord

end Underway

variable (g)

/-- How the events are responded to one after the other. -/
def responses : List (Alone Transition) := Personal.responses g.settings g.now g.answers g.start g.events

theorem responses_getElem? (i : Nat) : g.responses[i]? = g.events[i]?.map fun e => g.response e.1 i e.2 :=
  Personal.responses_getElem? ..

theorem length_responses : g.responses.length = g.events.length := by
  refine Nat.le_antisymm ?_ ?_
  · rw [← List.getElem?_eq_none_iff, responses_getElem?, List.getElem?_eq_none (Nat.le_refl _)]
    rfl
  · have hnone := g.responses_getElem? g.responses.length
    rw [List.getElem?_eq_none (Nat.le_refl _)] at hnone
    exact List.getElem?_eq_none_iff.1 (Option.map_eq_none_iff.1 hnone.symm)

theorem flatMap_total : (List.range g.events.length).flatMap g.total = g.responses.flatMap Alone.calls := by
  have htotal : ∀ i, g.total i = (g.responses[i]?.map Alone.calls).getD [] := by
    intro i
    rw [total, responses_getElem?, Option.map_map]
    rfl
  rw [List.flatMap_def, List.flatMap_def, ← g.length_responses]
  congr 1
  refine List.ext_getElem (by rw [List.length_map, List.length_map, List.length_range]) fun i hi hi' => ?_
  rw [List.length_map] at hi'
  rw [List.getElem_map, List.getElem_map, List.getElem_range, htotal, List.getElem?_eq_getElem hi']
  rfl

theorem personal_length (user : UserId) :
    g.personal user g.events.length = (g.start user).after g.settings g.now g.answers user g.events := by
  rw [personal, List.take_length]

variable {g} in
theorem Underway.maskedReplies_over (h : g.Underway env log m) (hover : m.Over) :
    maskedReplies g.events ((List.range g.events.length).map m.replyOf) =
      maskedReplies g.events (g.responses.map (·.result.reply)) := by
  refine List.ext_getElem? fun i => ?_
  rw [maskedReplies, maskedReplies, List.getElem?_zipWith, List.getElem?_zipWith, List.getElem?_map,
    List.getElem?_map, responses_getElem?]
  cases he : g.events[i]? with
  | none => rfl
  | some e =>
    have hi : i < g.events.length := (List.getElem?_eq_some_iff.1 he).1
    rw [List.getElem?_range hi]
    exact congrArg some (h.replyOf_over hover he)

end Occasion

/-- Events handled one after the other are responded to as the occasion says. -/
theorem handleAll_occasion {τ : Type} (settings : Settings) (env : Surroundings Storage τ)
    (events : List (UserId × Event)) (m : Slots Storage (List Vault.Call × τ)) (hcache : env.cache = storageCache)
    (hvault : env.vault.OrderFree) :
    let g := m.occasion settings env events
    let serial := handleAll settings env.recording events m.toEngine
    serial.2.Agrees (fun user => g.personal user g.events.length) ∧
      serial.2.world.vault.1 = m.world.vault.1 ++ g.responses.flatMap Alone.calls ∧
      maskedReplies events serial.1 = maskedReplies events (g.responses.map (·.result.reply)) := by
  intro g serial
  have hsteady : env.vault.Answers m.toEngine.world.vault.2 g.answers := fun _ => rfl
  have hstart : m.toEngine.Agrees g.start := fun user => ⟨m.flow_toEngine user, rfl⟩
  obtain ⟨hagrees, hrecord, hreplies⟩ := handleAll_alone hcache hvault settings hsteady hstart events
  refine ⟨?_, hrecord, hreplies⟩
  rw [funext g.personal_length]
  exact hagrees

/-- Events whose calls interleave are handled as if they had been handled one after the other. -/
theorem interleaving_serial {τ : Type} (settings : Settings) (env : Surroundings Storage τ)
    (events : List (UserId × Event)) {m m' : Slots Storage (List Vault.Call × τ)} (hcache : env.cache = storageCache)
    (hvault : env.vault.OrderFree) (hm : m.AtRest)
    (h : Slots.Interleaving settings env.recording (m.gather events) m') (hover : m'.Over) :
    let serial := handleAll settings env.recording events m.toEngine
    maskedReplies events ((List.range events.length).map m'.replyOf) = maskedReplies events serial.1 ∧
      (∀ user, m'.flow user = serial.2.flow user) ∧
      (∀ user now, (storageCache.session? now user m'.world.sessions).1 =
        (storageCache.session? now user serial.2.world.sessions).1) ∧
      m'.world.vault.1.Perm serial.2.world.vault.1 ∧
      (∀ user, (m'.users.find? user).isSome = true ↔ m'.flow user ≠ .idle) ∧ m'.AtRest := by
  intro serial
  have hg := hm.underway_of_interleaving hcache hvault h
  obtain ⟨hagrees, hrecord, hreplies⟩ := handleAll_occasion settings env events m hcache hvault
  have hrest := hg.atRest hover
  refine ⟨(hg.maskedReplies_over hover).trans hreplies.symm, fun user => ?_, fun user now => ?_, ?_,
    fun user => hrest.isSome_iff user, hrest⟩
  · exact (hg.flow_over hover user).trans (hagrees user).1.symm
  · have hcell : m'.world.sessions.cell user.sessionKey = serial.2.world.sessions.cell user.sessionKey :=
      (hg.when_over hover user).2.1.trans (hagrees user).2.symm
    rw [session?_cell, session?_cell, hcell]
  · have hperm := hg.record_over hover
    rw [Occasion.flatMap_total] at hperm
    rw [hrecord]
    exact hperm

/-- A user cancels while the answer to an earlier event of the same user is still to come. -/
theorem interleaving_serial_cancel :
    let settings : Settings := ⟨⟨60⟩, .never, 16⟩
    let env := Surroundings.plain storageCache (.granting ⟨"token"⟩)
    let events := [(⟨1⟩, .command .start), (⟨1⟩, .command .cancel)]
    let m : Slots Storage (List Vault.Call × Unit) := .ofEngine (.start ⟨.memory ∅, ([], ()), 0⟩)
    ∃ m', Slots.Interleaving settings env.recording (m.gather events) m' ∧ m'.Over ∧
      maskedReplies events ((List.range 2).map m'.replyOf) =
        maskedReplies events (handleAll settings env.recording events m.toEngine).1 := by
  intro settings env events m
  have hm : m.AtRest := (Slots.atRest_ofEngine fun _ hp => absurd hp List.not_mem_nil).1
  have hvault : env.vault.OrderFree := fun _ _ _ => rfl
  have hfirst : ∀ m : Slots Storage (List Vault.Call × Unit), m.InOrder 0 :=
    fun _ _ _ _ _ hj => absurd hj (Nat.not_lt_zero _)
  have hsecond : ∀ {m : Slots Storage (List Vault.Call × Unit)} {c : InFlight}, m.calls.find? 0 = some c →
      c.phase.rests = true → m.InOrder 1 := by
    intro m c hc hrest _ _ _ j hj c' hc' _ harriving
    rw [Nat.lt_one_iff.1 hj, hc] at hc'
    cases hc'
    rw [harriving] at hrest
    cases hrest
  have h : Slots.Interleaving settings env.recording (m.gather events) (m.gather events) := .refl _
  -- The first call looks for a session and is about to register the user when the second one gets in line.
  have h := h.turn 0 (hfirst _) ⟨3, rfl, _, rfl, rfl⟩
  have h := h.turn 1 (hsecond rfl rfl) ⟨1, rfl, _, rfl, rfl⟩
  have h := h.turn 0 (hfirst _) ⟨2, rfl, _, rfl, rfl⟩
  have h := h.turn 1 (hsecond rfl rfl) ⟨3, rfl, _, rfl, rfl⟩
  obtain ⟨m', h, hover⟩ : ∃ m', Slots.Interleaving settings env.recording (m.gather events) m' ∧ m'.Over :=
    ⟨_, h, .of_pairs (by decide +kernel)⟩
  exact ⟨m', h, hover, (interleaving_serial settings env events rfl hvault hm h hover).1⟩

end VaultChat.Engine
