import VaultChat.Proofs.Interleaving

/-!
# Schedules

Calls that are handled at once, in any order of their single steps.  `Step` lists what a step can be: a call acts on
the slot that it has found (`Act`), makes a slot, finds none to look at, or removes one.  A schedule names for every
step the call that makes it and the surroundings that answer it.  `Slots.follow` is where a schedule leads,
`Slots.commits` are the dialogue steps that are committed on the way, and what every step keeps is kept by every
schedule (`follow_induction`).
-/

namespace VaultChat.Engine

open Chat

variable {σ τ : Type}

namespace Phase

/-- The slot on which a call has a handle. -/
def handle? : Phase → Option Nat
  | .holding s | .queued s | .working s _ | .committed s _ | .leaving s _ => some s
  | .arriving | .finished _ | .seen _ => none

/-- The slot whose lock a call has asked for and not given back. -/
def line? : Phase → Option Nat
  | .queued s | .working s _ => some s
  | .arriving | .holding _ | .committed .. | .leaving .. | .finished _ | .seen _ => none

theorem handle?_of_line? {p : Phase} {s : Nat} (h : p.line? = some s) : p.handle? = some s := by
  cases p <;> first | exact h | cases h

end Phase

namespace Slots

/-! ### Steps -/

/-- What call `i` does in one step to slot `s`, at which it finds `x`: the phase that follows, and the slot as the
call leaves it. -/
inductive Act (settings : Settings) (i : Nat) (c : InFlight) (s : Nat) (x : Slot) : Phase → Slot → Prop where
  | take (hp : c.phase = .arriving) : Act settings i c s x (.holding s) x.take
  | ask (hp : c.phase = .holding s) : Act settings i c s x (.queued s) (x.ask i)
  | begin {event} (hp : c.phase = .queued s) (hh : x.holder = some i) (he : c.event = some event) :
      Act settings i c s x (.working s (respond settings c.user x.flow event)) x
  | look (hp : c.phase = .queued s) (hh : x.holder = some i) (he : c.event = none) :
      Act settings i c s x (.seen x.flow) x.unlock.drop
  | advance {p q} (hp : c.phase = .working s p) (hne : ∀ t, p ≠ .done t) : Act settings i c s x (.working s q) x
  | commit {t} (hp : c.phase = .working s (.done t)) :
      Act settings i c s x (if t.next = .idle then .committed s t.reply else .leaving s t.reply)
        { x with flow := t.next }.unlock
  | keep {reply} (hp : c.phase = .committed s reply) : Act settings i c s x (.leaving s reply) x
  | leave {reply} (hp : c.phase = .leaving s reply) : Act settings i c s x (.finished reply) x.drop

/-- What a step of call `i` can be. -/
inductive Step (settings : Settings) (m : Slots σ τ) (i : Nat) (c : InFlight) (m' : Slots σ τ) : Prop where
  | act {s x phase x'} (hs : m.slots.find? s = some x) (hfound : c.phase = .arriving → m.users.find? c.user = some s)
      (h : Act settings i c s x phase x')
      (hkept : ∀ reply, c.phase = .committed s reply → m.releasable c.user s = false)
      (hm : Changes m m' i { c with phase } s x') (husers : m'.users = m.users) (hfresh : m'.fresh = m.fresh)
  | create (hp : c.phase = .arriving) (he : c.event ≠ none) (hu : m.users.find? c.user = none)
      (hm : Changes m m' i { c with phase := .holding m.fresh } m.fresh ⟨.idle, none, [], 1⟩)
      (husers : m'.users = m.users.insert c.user m.fresh) (hfresh : m'.fresh = m.fresh + 1)
  | miss (hp : c.phase = .arriving) (hu : m.users.find? c.user = none) (hm : m' = m.setPhase i c (.seen .idle))
  | remove {s x reply} (hp : c.phase = .committed s reply) (hu : m.users.find? c.user = some s)
      (hs : m.slots.find? s = some x) (hidle : x.flow = .idle) (hhandles : x.handles = 1) (hfree : x.holder = none)
      (hm : Changes m m' i { c with phase := .leaving s reply } s x) (husers : m'.users = m.users.erase c.user)
      (hfresh : m'.fresh = m.fresh)

section

variable {settings : Settings} {env : Surroundings σ τ} {m m' : Slots σ τ} {i s : Nat} {c : InFlight} {x : Slot}

private theorem changes_same (c : InFlight) (phase : Phase) (hs : m.slots.find? s = some x) :
    Changes m (m.setPhase i c phase) i { c with phase } s x :=
  ⟨fun _ => find?_calls_setPhase .., find?_slots_self hs⟩

private theorem step_of_arriving (hc : m.calls.find? i = some c) (hp : c.phase = .arriving)
    (huser : ∀ s, m.users.find? c.user = some s → ∃ x, m.slots.find? s = some x)
    (h : m.step settings env i = some m') : Step settings m i c m' := by
  simp only [step, hc, hp, Option.bind_eq_bind, Option.bind_some, Option.pure_def] at h
  cases hu : m.users.find? c.user with
  | some s =>
    obtain ⟨x, hs⟩ := huser s hu
    simp only [hu, Option.some.injEq] at h
    subst h
    refine .act hs (fun _ => hu) (.take hp) (by simp [hp]) (changes_setPhase c _ hs) ?_ ?_ <;> simp [setPhase]
  | none =>
    cases he : c.event with
    | none =>
      simp only [hu, he, Option.some.injEq] at h
      exact .miss hp hu h.symm
    | some event =>
      simp only [hu, he, Option.some.injEq] at h
      subst h
      exact .create hp (by simp [he]) hu
        ⟨fun _ => find?_calls_setPhase .., fun _ => KeyMap.find?_insert ..⟩ rfl rfl

private theorem step_of_queued (hc : m.calls.find? i = some c) (hp : c.phase = .queued s)
    (hs : m.slots.find? s = some x) (h : m.step settings env i = some m') : Step settings m i c m' := by
  simp only [step, hc, hp, hs, Option.bind_eq_bind, Option.bind_some, Option.pure_def] at h
  have harriving : c.phase ≠ .arriving := by simp [hp]
  have hcommitted : ∀ reply, c.phase = .committed s reply → m.releasable c.user s = false := by simp [hp]
  by_cases hh : x.holder = some i
  · have hguard : (guard (x.holder = some i) : Option Unit) = some () := if_pos hh
    rw [hguard] at h
    cases he : c.event with
    | some event =>
      simp only [he, Option.bind_some, Option.some.injEq] at h
      subst h
      exact .act hs (absurd · harriving) (.begin hp hh he) hcommitted (changes_same c _ hs) rfl rfl
    | none =>
      simp only [he, Option.bind_some, Option.some.injEq] at h
      subst h
      refine .act hs (absurd · harriving) (.look hp hh he) hcommitted (changes_setPhase c _ hs) ?_ ?_ <;>
        simp [setPhase]
  · have hguard : (guard (x.holder = some i) : Option Unit) = none := if_neg hh
    rw [hguard] at h
    cases h

private theorem step_of_committed {reply : Reply} (hc : m.calls.find? i = some c) (hp : c.phase = .committed s reply)
    (hs : m.slots.find? s = some x) (h : m.step settings env i = some m') : Step settings m i c m' := by
  rw [step_release hc hp, Option.some.injEq] at h
  subst h
  have hm := changes_same (m := m.released c.user s) (i := i) c (.leaving s reply) (by rw [released_slots]; exact hs)
  have hm : Changes m ((m.released c.user s).setPhase i c (.leaving s reply)) i
      { c with phase := .leaving s reply } s x :=
    ⟨fun j => by rw [hm.calls, released_calls], fun k => by rw [hm.slots, released_slots]⟩
  by_cases hr : m.releasable c.user s = true
  · have husers : (m.released c.user s).users = m.users.erase c.user := by rw [released, if_pos hr]
    rw [releasable, hs] at hr
    simp only [Bool.and_eq_true, beq_iff_eq, Option.isNone_iff_eq_none, decide_eq_true_eq] at hr
    obtain ⟨hu, ⟨hhandles, hfree⟩, hidle⟩ := hr
    exact .remove hp hu hs hidle hhandles hfree hm husers (released_fresh ..)
  · have husers : (m.released c.user s).users = m.users := by rw [released, if_neg hr]
    exact .act hs (by simp [hp]) (.keep hp) (fun _ _ => by simpa using hr) hm husers (released_fresh ..)

/-- Every step is one of these, as long as the slots are there that the call or the map names. -/
theorem step_cases (hc : m.calls.find? i = some c)
    (hhandle : ∀ s, c.phase.handle? = some s → ∃ x, m.slots.find? s = some x)
    (huser : ∀ s, m.users.find? c.user = some s → ∃ x, m.slots.find? s = some x)
    (h : m.step settings env i = some m') : Step settings m i c m' := by
  cases hp : c.phase with
  | arriving => exact step_of_arriving hc hp huser h
  | finished reply => simp [step, hc, hp] at h
  | seen flow => simp [step, hc, hp] at h
  | queued s =>
    obtain ⟨x, hs⟩ := hhandle s (by rw [hp]; rfl)
    exact step_of_queued hc hp hs h
  | committed s reply =>
    obtain ⟨x, hs⟩ := hhandle s (by rw [hp]; rfl)
    exact step_of_committed hc hp hs h
  | holding s =>
    obtain ⟨x, hs⟩ := hhandle s (by rw [hp]; rfl)
    rw [step_ask hc hp, Option.some.injEq] at h
    subst h
    refine .act hs (by simp [hp]) (.ask hp) (by simp [hp]) (changes_setPhase c _ hs) ?_ ?_ <;> simp [setPhase]
  | leaving s reply =>
    obtain ⟨x, hs⟩ := hhandle s (by rw [hp]; rfl)
    rw [step_leave hc hp, Option.some.injEq] at h
    subst h
    refine .act hs (by simp [hp]) (.leave hp) (by simp [hp]) (changes_setPhase c _ hs) ?_ ?_ <;>
      simp [setPhase]
  | working s p =>
    obtain ⟨x, hs⟩ := hhandle s (by rw [hp]; rfl)
    by_cases hd : ∃ t, p = .done t
    · obtain ⟨t, rfl⟩ := hd
      rw [step_commit hc hp, Option.some.injEq] at h
      subst h
      refine .act hs (by simp [hp]) (.commit hp) (by simp [hp]) (changes_setPhase c _ hs) ?_ ?_ <;>
        simp [setPhase]
    · have hd : ∀ t, p ≠ .done t := fun t ht => hd ⟨t, ht⟩
      rw [step_working hd hc hp, Option.some.injEq] at h
      subst h
      exact .act hs (by simp [hp]) (.advance hp hd) (by simp [hp])
        ⟨fun _ => find?_calls_setPhase .., find?_slots_self hs⟩ rfl rfl

end

/-! ### Many steps -/

/-- No slots, and calls that have yet to arrive, numbered in their order. -/
def opening (w : World σ τ) (calls : List (UserId × Option Event)) : Slots σ τ where
  users := ∅
  slots := ∅
  fresh := 0
  calls := calls.zipIdx.foldl (fun m p => m.insert p.2 ⟨p.1.1, p.1.2, .arriving⟩) ∅
  world := w

theorem call_of_opening {w : World σ τ} {calls : List (UserId × Option Event)} {i : Nat} {c : InFlight}
    (h : (opening w calls).calls.find? i = some c) : ∃ e ∈ calls, c = ⟨e.1, e.2, .arriving⟩ := by
  suffices ∀ (ps : List ((UserId × Option Event) × Nat)) (m : KeyMap Nat InFlight), (∀ p ∈ ps, p.1 ∈ calls) →
      (∀ i c, m.find? i = some c → ∃ e ∈ calls, c = ⟨e.1, e.2, .arriving⟩) → ∀ i c,
        (ps.foldl (fun m p => m.insert p.2 ⟨p.1.1, p.1.2, .arriving⟩) m).find? i = some c →
          ∃ e ∈ calls, c = ⟨e.1, e.2, .arriving⟩ from
    this _ ∅ (fun _ hp => List.fst_mem_of_mem_zipIdx hp) nofun i c h
  intro ps
  induction ps with
  | nil => exact fun m _ hm => hm
  | cons p ps ih =>
    intro m hps hm
    obtain ⟨hp, hps⟩ := List.forall_mem_cons.1 hps
    refine ih _ hps fun i c hc => ?_
    rw [KeyMap.find?_insert] at hc
    split at hc
    · cases hc
      exact ⟨p.1, hp, rfl⟩
    · exact hm i c hc

theorem arriving_of_opening {w : World σ τ} {calls : List (UserId × Option Event)} {i : Nat} {c : InFlight}
    (h : (opening w calls).calls.find? i = some c) : c.phase = .arriving := by
  obtain ⟨e, -, rfl⟩ := call_of_opening h
  rfl

/-- The user and the dialogue step that call `i` is about to commit. -/
def commit? (m : Slots σ τ) (i : Nat) : Option (UserId × Flow) :=
  match m.calls.find? i with
  | some ⟨user, _, .working _ (.done t)⟩ => some (user, t.next)
  | _ => none

theorem commit?_of_done {m : Slots σ τ} {i s : Nat} {c : InFlight} {t : Transition} (hc : m.calls.find? i = some c)
    (hp : c.phase = .working s (.done t)) : m.commit? i = some (c.user, t.next) := by
  obtain ⟨user, event, phase⟩ := c
  cases hp
  rw [commit?, hc]

theorem commit?_of_not_done {m : Slots σ τ} {i : Nat} {c : InFlight} (hc : m.calls.find? i = some c)
    (hp : ∀ s t, c.phase ≠ .working s (.done t)) : m.commit? i = none := by
  unfold commit?
  split
  · rename_i hc'
    rw [hc] at hc'
    cases hc'
    exact absurd rfl (hp _ _)
  · rfl

variable (settings : Settings)

/-- Where a schedule leads.  A call that cannot make a step is passed over. -/
def follow : Slots σ τ → List (Surroundings σ τ × Nat) → Slots σ τ
  | m, [] => m
  | m, (env, i) :: schedule =>
    match m.step settings env i with
    | some m' => m'.follow schedule
    | none => m.follow schedule

/-- The dialogue steps that are committed on a schedule, in their order. -/
def commits : Slots σ τ → List (Surroundings σ τ × Nat) → List (UserId × Flow)
  | _, [] => []
  | m, (env, i) :: schedule =>
    match m.step settings env i with
    | some m' => (m.commit? i).toList ++ m'.commits schedule
    | none => m.commits schedule

variable {settings}

/-- What holds at the start, with nothing committed, and is kept by every step, holds after every schedule. -/
theorem follow_induction {m : Slots σ τ} (I : List (UserId × Flow) → Slots σ τ → Prop) (start : I [] m)
    (step : ∀ past m env i m', I past m → m.step settings env i = some m' → I (past ++ (m.commit? i).toList) m')
    (schedule : List (Surroundings σ τ × Nat)) : I (m.commits settings schedule) (m.follow settings schedule) := by
  suffices ∀ past m, I past m → I (past ++ m.commits settings schedule) (m.follow settings schedule) from
    this [] m start
  induction schedule with
  | nil =>
    intro past m hI
    rw [commits, List.append_nil]
    exact hI
  | cons e schedule ih =>
    intro past m hI
    obtain ⟨env, i⟩ := e
    rw [commits, follow]
    cases hstep : m.step settings env i with
    | none => exact ih past m hI
    | some m' =>
      have hnext := ih _ m' (step past m env i m' hI hstep)
      rw [List.append_assoc] at hnext
      exact hnext

end Slots

end VaultChat.Engine
