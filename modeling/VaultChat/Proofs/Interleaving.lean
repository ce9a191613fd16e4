import Mathlib.Data.Option.Basic
import VaultChat.Engine.Slots

/-!
# Interleavings

Calls that are handled at once take turns.  A turn of a call is a number of its moves after which it rests: it waits
for a lock or for an answer, or it is over.  `Interleaving` allows all orders of turns in which the calls of one user
arrive in the order of their numbers.  `Move` lists what a call can do between two rests, and `Turn.induction` says
that what every such move keeps is kept by a turn.
-/

namespace VaultChat.Engine

open Chat

variable {σ τ : Type}

/-- Others may go on while a call is in this phase. -/
def Phase.rests : Phase → Bool
  | .queued _ | .working .. | .finished _ | .seen _ => true
  | .arriving | .holding _ | .committed .. | .leaving .. => false

namespace Slots

/-- A number of moves of call `i`. -/
def moves (settings : Settings) (env : Surroundings σ τ) (i : Nat) : (n : Nat) → Slots σ τ → Option (Slots σ τ)
  | 0, m => some m
  | n + 1, m => (m.step settings env i).bind (moves settings env i n)

def Rests (m : Slots σ τ) (i : Nat) : Prop := ∃ c, m.calls.find? i = some c ∧ c.phase.rests = true

/-- Call `i` moves and rests after the last move. -/
def Turn (settings : Settings) (env : Surroundings σ τ) (i : Nat) (m m' : Slots σ τ) : Prop :=
  ∃ n, m.moves settings env i (n + 1) = some m' ∧ m'.Rests i

/-- Call `i` has arrived, or those of its user with smaller numbers have. -/
def InOrder (m : Slots σ τ) (i : Nat) : Prop :=
  ∀ c, m.calls.find? i = some c → c.phase = .arriving →
    ∀ j < i, ∀ c', m.calls.find? j = some c' → c'.user = c.user → c'.phase ≠ .arriving

/-- Calls take turns, and those of one user arrive in order. -/
inductive Interleaving (settings : Settings) (env : Surroundings σ τ) : Slots σ τ → Slots σ τ → Prop where
  | refl (m : Slots σ τ) : Interleaving settings env m m
  | turn {m m' m'' : Slots σ τ} (h : Interleaving settings env m m') (i : Nat) (ho : m'.InOrder i)
      (ht : Turn settings env i m' m'') : Interleaving settings env m m''

/-! ### Changes -/

theorem find?_calls_setPhase (m : Slots σ τ) (i j : Nat) (c : InFlight) (phase : Phase) :
    (m.setPhase i c phase).calls.find? j = if j = i then some { c with phase } else m.calls.find? j :=
  KeyMap.find?_insert ..

@[simp] theorem changeSlot_users (m : Slots σ τ) (s : Nat) (f : Slot → Slot) :
    (m.changeSlot s f).users = m.users := by
  unfold changeSlot
  split <;> rfl

@[simp] theorem changeSlot_calls (m : Slots σ τ) (s : Nat) (f : Slot → Slot) :
    (m.changeSlot s f).calls = m.calls := by
  unfold changeSlot
  split <;> rfl

@[simp] theorem changeSlot_fresh (m : Slots σ τ) (s : Nat) (f : Slot → Slot) :
    (m.changeSlot s f).fresh = m.fresh := by
  unfold changeSlot
  split <;> rfl

@[simp] theorem changeSlot_world (m : Slots σ τ) (s : Nat) (f : Slot → Slot) :
    (m.changeSlot s f).world = m.world := by
  unfold changeSlot
  split <;> rfl

theorem find?_slots_changeSlot {m : Slots σ τ} {s : Nat} {x : Slot} (f : Slot → Slot) (h : m.slots.find? s = some x)
    (k : Nat) : (m.changeSlot s f).slots.find? k = if k = s then some (f x) else m.slots.find? k := by
  rw [changeSlot, h]
  exact KeyMap.find?_insert ..

theorem flow_of_none {m : Slots σ τ} {user : UserId} (hu : m.users.find? user = none) : m.flow user = .idle := by
  rw [flow, hu]
  rfl

theorem flow_of_slot {m : Slots σ τ} {user : UserId} {s : Nat} {x : Slot} (hu : m.users.find? user = some s)
    (hs : m.slots.find? s = some x) : m.flow user = x.flow := by
  rw [flow, hu, Option.bind_some, hs]
  rfl

/-- The slots after the test whether a user's slot may be removed. -/
def released (m : Slots σ τ) (user : UserId) (s : Nat) : Slots σ τ :=
  if m.releasable user s then { m with users := m.users.erase user } else m

@[simp] theorem released_calls (m : Slots σ τ) (user : UserId) (s : Nat) : (m.released user s).calls = m.calls := by
  unfold released
  split <;> rfl

@[simp] theorem released_slots (m : Slots σ τ) (user : UserId) (s : Nat) : (m.released user s).slots = m.slots := by
  unfold released
  split <;> rfl

@[simp] theorem released_fresh (m : Slots σ τ) (user : UserId) (s : Nat) : (m.released user s).fresh = m.fresh := by
  unfold released
  split <;> rfl

@[simp] theorem released_world (m : Slots σ τ) (user : UserId) (s : Nat) : (m.released user s).world = m.world := by
  unfold released
  split <;> rfl

theorem released_users {m : Slots σ τ} {user : UserId} {s : Nat} {x : Slot} (hu : m.users.find? user = some s)
    (hs : m.slots.find? s = some x) : (m.released user s).users =
      if x.flow = .idle ∧ x.handles = 1 ∧ x.holder = none then m.users.erase user else m.users := by
  have h : m.releasable user s = true ↔ x.flow = .idle ∧ x.handles = 1 ∧ x.holder = none := by
    rw [releasable, hu, hs]
    simp only [beq_self_eq_true, Bool.true_and, Bool.and_eq_true, beq_iff_eq, Option.isNone_iff_eq_none,
      decide_eq_true_eq]
    exact ⟨fun h => ⟨h.2, h.1⟩, fun h => ⟨h.2, h.1⟩⟩
  unfold released
  by_cases hr : m.releasable user s = true
  · rw [if_pos hr, if_pos (h.1 hr)]
  · rw [if_neg hr, if_neg fun hx => hr (h.2 hx)]

/-- `m'` is `m` but for call `i` and the slot of one number. -/
structure Changes (m m' : Slots σ τ) (i : Nat) (c : InFlight) (s : Nat) (x : Slot) : Prop where
  calls : ∀ j, m'.calls.find? j = if j = i then some c else m.calls.find? j
  slots : ∀ k, m'.slots.find? k = if k = s then some x else m.slots.find? k

theorem Changes.call {m m' : Slots σ τ} {i s : Nat} {c : InFlight} {x : Slot} (h : Changes m m' i c s x) :
    m'.calls.find? i = some c := by
  rw [h.calls, if_pos rfl]

theorem Changes.slot {m m' : Slots σ τ} {i s : Nat} {c : InFlight} {x : Slot} (h : Changes m m' i c s x) :
    m'.slots.find? s = some x := by
  rw [h.slots, if_pos rfl]

theorem Changes.trans {m m' m'' : Slots σ τ} {i s : Nat} {c c' : InFlight} {x x' : Slot} (h : Changes m m' i c s x)
    (h' : Changes m' m'' i c' s x') : Changes m m'' i c' s x' where
  calls j := by
    rw [h'.calls, h.calls]
    split <;> rfl
  slots k := by
    rw [h'.slots, h.slots]
    split <;> rfl

/-! ### Moves -/

/-- What call `i` does between two rests. -/
inductive Move (settings : Settings) (env : Surroundings σ τ) (m : Slots σ τ) (i : Nat) (m' : Slots σ τ) : Prop where
  | enter {user event s x} (hc : m.calls.find? i = some ⟨user, some event, .arriving⟩)
      (hu : m.users.find? user = some s) (hs : m.slots.find? s = some x)
      (h : Changes m m' i ⟨user, some event, .queued s⟩ s (x.take.ask i)) (husers : m'.users = m.users)
      (hfresh : m'.fresh = m.fresh) (hworld : m'.world = m.world)
  | create {user event} (hc : m.calls.find? i = some ⟨user, some event, .arriving⟩)
      (hu : m.users.find? user = none)
      (h : Changes m m' i ⟨user, some event, .queued m.fresh⟩ m.fresh ⟨.idle, some i, [], 1⟩)
      (husers : m'.users = m.users.insert user m.fresh) (hfresh : m'.fresh = m.fresh + 1)
      (hworld : m'.world = m.world)
  | begin {user event s x} (hc : m.calls.find? i = some ⟨user, some event, .queued s⟩)
      (hs : m.slots.find? s = some x) (hh : x.holder = some i)
      (h : Changes m m' i ⟨user, some event, .working s (respond settings user x.flow event)⟩ s x)
      (husers : m'.users = m.users) (hfresh : m'.fresh = m.fresh) (hworld : m'.world = m.world)
  | advance {user event s x p} (hc : m.calls.find? i = some ⟨user, some event, .working s p⟩)
      (hs : m.slots.find? s = some x) (hp : ∀ t, p ≠ .done t)
      (h : Changes m m' i ⟨user, some event, .working s (p.advance env m.world).1⟩ s x)
      (husers : m'.users = m.users) (hfresh : m'.fresh = m.fresh) (hworld : m'.world = (p.advance env m.world).2)
  | finish {user event s x t} (hc : m.calls.find? i = some ⟨user, some event, .working s (.done t)⟩)
      (hu : m.users.find? user = some s) (hs : m.slots.find? s = some x)
      (h : Changes m m' i ⟨user, some event, .finished t.reply⟩ s { x with flow := t.next }.unlock.drop)
      (husers : m'.users = if t.next = .idle ∧ x.handles = 1 ∧ x.waiting = [] then m.users.erase user else m.users)
      (hfresh : m'.fresh = m.fresh) (hworld : m'.world = m.world)

/-- Every call rests or has yet to arrive, and a call between has its user's slot. -/
structure Settled (m : Slots σ τ) : Prop where
  slots : ∀ user s, m.users.find? user = some s → ∃ x, m.slots.find? s = some x
  calls : ∀ i c, m.calls.find? i = some c → ∃ event, c.event = some event ∧
    (c.phase = .arriving ∨ (∃ reply, c.phase = .finished reply) ∨
      ∃ s, m.users.find? c.user = some s ∧ (c.phase = .queued s ∨ ∃ p, c.phase = .working s p))

section

variable {settings : Settings} {env : Surroundings σ τ} {m m' : Slots σ τ} {i s : Nat} {x : Slot} {user : UserId}
  {event : Event}

private theorem step_enter (hc : m.calls.find? i = some ⟨user, some event, .arriving⟩)
    (hu : m.users.find? user = some s) : m.step settings env i =
      some ((m.changeSlot s .take).setPhase i ⟨user, some event, .arriving⟩ (.holding s)) := by
  simp only [step, hc, hu, Option.bind_eq_bind, Option.bind_some, Option.pure_def]

private theorem step_create (hc : m.calls.find? i = some ⟨user, some event, .arriving⟩)
    (hu : m.users.find? user = none) : m.step settings env i =
      some (setPhase { m with
        users := m.users.insert user m.fresh
        slots := m.slots.insert m.fresh ⟨.idle, none, [], 1⟩
        fresh := m.fresh + 1 } i ⟨user, some event, .arriving⟩ (.holding m.fresh)) := by
  simp only [step, hc, hu, Option.bind_eq_bind, Option.bind_some, Option.pure_def]
  rfl

theorem step_ask {c : InFlight} (hc : m.calls.find? i = some c) (hp : c.phase = .holding s) :
    m.step settings env i = some ((m.changeSlot s (·.ask i)).setPhase i c (.queued s)) := by
  simp only [step, hc, hp, Option.bind_eq_bind, Option.bind_some, Option.pure_def]

private theorem step_queued (hc : m.calls.find? i = some ⟨user, some event, .queued s⟩)
    (hs : m.slots.find? s = some x) (h : m.step settings env i = some m') : x.holder = some i ∧
      m' = m.setPhase i ⟨user, some event, .queued s⟩ (.working s (respond settings user x.flow event)) := by
  simp only [step, hc, hs, Option.bind_eq_bind, Option.bind_some, Option.pure_def] at h
  by_cases hh : x.holder = some i
  · rw [guard, if_pos hh] at h
    cases h
    exact ⟨hh, rfl⟩
  · rw [guard, if_neg hh] at h
    cases h

theorem step_working {c : InFlight} {p : Procedure Transition} (hp : ∀ t, p ≠ .done t)
    (hc : m.calls.find? i = some c) (hw : c.phase = .working s p) : m.step settings env i =
      some (setPhase { m with world := (p.advance env m.world).2 } i c (.working s (p.advance env m.world).1)) := by
  cases p with
  | done t => exact absurd rfl (hp t)
  | lookUp | store | forget | extend | call | choose =>
    simp only [step, hc, hw, Option.bind_eq_bind, Option.bind_some, Option.pure_def]

theorem step_commit {c : InFlight} {t : Transition} (hc : m.calls.find? i = some c)
    (hw : c.phase = .working s (.done t)) : m.step settings env i =
      some ((m.changeSlot s fun x => { x with flow := t.next }.unlock).setPhase i c
        (if t.next = .idle then .committed s t.reply else .leaving s t.reply)) := by
  simp only [step, hc, hw, Option.bind_eq_bind, Option.bind_some, Option.pure_def]

theorem step_release {c : InFlight} {reply : Reply} (hc : m.calls.find? i = some c)
    (hp : c.phase = .committed s reply) : m.step settings env i =
      some ((m.released c.user s).setPhase i c (.leaving s reply)) := by
  simp only [step, hc, hp, Option.bind_eq_bind, Option.bind_some, Option.pure_def]
  rfl

theorem step_leave {c : InFlight} {reply : Reply} (hc : m.calls.find? i = some c)
    (hp : c.phase = .leaving s reply) :
    m.step settings env i = some ((m.changeSlot s .drop).setPhase i c (.finished reply)) := by
  simp only [step, hc, hp, Option.bind_eq_bind, Option.bind_some, Option.pure_def]

theorem step_finished {c : InFlight} {reply : Reply} (hc : m.calls.find? i = some c)
    (hp : c.phase = .finished reply) : m.step settings env i = none := by
  simp only [step, hc, hp, Option.bind_eq_bind, Option.bind_some]

theorem changes_setPhase {f : Slot → Slot} (c : InFlight) (phase : Phase) (hs : m.slots.find? s = some x) :
    Changes m ((m.changeSlot s f).setPhase i c phase) i { c with phase } s (f x) where
  calls j := by
    rw [find?_calls_setPhase, changeSlot_calls]
  slots k := find?_slots_changeSlot f hs k

theorem find?_slots_self (hs : m.slots.find? s = some x) (k : Nat) :
    m.slots.find? k = if k = s then some x else m.slots.find? k := by
  split
  · rename_i hk
    rw [hk]
    exact hs
  · rfl

private theorem moves_of_step {n : Nat} {m₁ : Slots σ τ} (hstep : m.step settings env i = some m₁)
    (h : m.moves settings env i (n + 1) = some m') : m₁.moves settings env i n = some m' := by
  rw [moves, hstep] at h
  exact h

/-- A call that does not rest goes on to move. -/
private theorem moves_of_busy {n : Nat} {c : InFlight} {m₁ : Slots σ τ} (hc : m.calls.find? i = some c)
    (hbusy : c.phase.rests = false) (hstep : m.step settings env i = some m₁)
    (h : m.moves settings env i n = some m') (hrest : m'.Rests i) : ∃ k, n = k + 1 ∧
      m₁.moves settings env i k = some m' := by
  cases n with
  | zero =>
    cases h
    obtain ⟨c', hc', hrest⟩ := hrest
    rw [hc] at hc'
    cases hc'
    rw [hbusy] at hrest
    cases hrest
  | succ k => exact ⟨k, rfl, moves_of_step hstep h⟩

private theorem move_enter {n : Nat} (hc : m.calls.find? i = some ⟨user, some event, .arriving⟩)
    (hu : m.users.find? user = some s) (hs : m.slots.find? s = some x)
    (h : m.moves settings env i (n + 1) = some m') (hrest : m'.Rests i) :
    ∃ k ≤ n, ∃ m₁, Move settings env m i m₁ ∧ m₁.moves settings env i k = some m' := by
  have h₁ := changes_setPhase (i := i) (f := .take) ⟨user, some event, .arriving⟩ (.holding s) hs
  obtain ⟨k, rfl, hk⟩ := moves_of_busy h₁.call rfl (step_ask h₁.call rfl) (moves_of_step (step_enter hc hu) h) hrest
  have h₂ := changes_setPhase (i := i) (f := (·.ask i)) ⟨user, some event, .holding s⟩ (.queued s) h₁.slot
  refine ⟨k, Nat.le_succ k, _, .enter hc hu hs (h₁.trans h₂) ?_ ?_ ?_, hk⟩ <;> simp [setPhase]

private theorem move_create {n : Nat} (hc : m.calls.find? i = some ⟨user, some event, .arriving⟩)
    (hu : m.users.find? user = none) (h : m.moves settings env i (n + 1) = some m') (hrest : m'.Rests i) :
    ∃ k ≤ n, ∃ m₁, Move settings env m i m₁ ∧ m₁.moves settings env i k = some m' := by
  have h₁ : Changes m (setPhase { m with
        users := m.users.insert user m.fresh
        slots := m.slots.insert m.fresh ⟨.idle, none, [], 1⟩
        fresh := m.fresh + 1 } i ⟨user, some event, .arriving⟩ (.holding m.fresh))
      i ⟨user, some event, .holding m.fresh⟩ m.fresh ⟨.idle, none, [], 1⟩ :=
    ⟨fun j => find?_calls_setPhase .., fun k => KeyMap.find?_insert ..⟩
  obtain ⟨k, rfl, hk⟩ := moves_of_busy h₁.call rfl (step_ask h₁.call rfl) (moves_of_step (step_create hc hu) h) hrest
  have h₂ := changes_setPhase (i := i) (f := (·.ask i)) ⟨user, some event, .holding m.fresh⟩ (.queued m.fresh) h₁.slot
  refine ⟨k, Nat.le_succ k, _, .create hc hu (h₁.trans h₂) ?_ ?_ ?_, hk⟩ <;> simp [setPhase]

private theorem move_leave {n : Nat} {c : InFlight} {reply : Reply} (hc : m.calls.find? i = some c)
    (hp : c.phase = .leaving s reply) (hs : m.slots.find? s = some x) (h : m.moves settings env i n = some m')
    (hrest : m'.Rests i) : ∃ k, n = k + 1 ∧ ∃ m₁, Changes m m₁ i { c with phase := .finished reply } s x.drop ∧
      m₁.users = m.users ∧ m₁.fresh = m.fresh ∧ m₁.world = m.world ∧ m₁.moves settings env i k = some m' := by
  obtain ⟨k, rfl, hk⟩ := moves_of_busy hc (by rw [hp]; rfl) (step_leave hc hp) h hrest
  refine ⟨k, rfl, _, changes_setPhase c (.finished reply) hs, ?_, ?_, ?_, hk⟩ <;> simp [setPhase]

private theorem move_finish {n : Nat} {t : Transition}
    (hc : m.calls.find? i = some ⟨user, some event, .working s (.done t)⟩) (hu : m.users.find? user = some s)
    (hs : m.slots.find? s = some x) (h : m.moves settings env i (n + 1) = some m') (hrest : m'.Rests i) :
    ∃ k ≤ n, ∃ m₁, Move settings env m i m₁ ∧ m₁.moves settings env i k = some m' := by
  have h := moves_of_step (step_commit hc rfl) h
  have h₁ := fun phase => changes_setPhase (i := i) (f := fun x => { x with flow := t.next }.unlock)
    ⟨user, some event, .working s (.done t)⟩ phase hs
  by_cases hidle : t.next = .idle
  · -- The release test is made between the commit and the end, on the slot as the commit left it.
    rw [if_pos hidle] at h
    have h₁ := h₁ (.committed s t.reply)
    generalize hm₁ : (m.changeSlot s fun x => { x with flow := t.next }.unlock).setPhase i _ _ = m₁ at h h₁
    have hs₁ := h₁.slot
    obtain ⟨k₁, rfl, hk₁⟩ := moves_of_busy h₁.call rfl (step_release h₁.call rfl) h hrest
    have hc₂ := find?_calls_setPhase (m₁.released user s) i i ⟨user, some event, .committed s t.reply⟩
      (.leaving s t.reply)
    rw [if_pos rfl] at hc₂
    obtain ⟨k₂, rfl, m₃, h₃, husers, hfresh, hworld, hk₂⟩ := move_leave hc₂ rfl
      (by simpa only [setPhase, released_slots] using hs₁) hk₁ hrest
    refine ⟨k₂, by omega, m₃, .finish hc hu hs ⟨fun j => ?_, fun k => ?_⟩ ?_ ?_ ?_, hk₂⟩
    · rw [h₃.calls, find?_calls_setPhase, released_calls, h₁.calls]
      split <;> rfl
    · rw [h₃.slots]
      simp only [setPhase, released_slots, h₁.slots]
      split <;> rfl
    · have hu₁ : m₁.users = m.users := by simp [← hm₁, setPhase]
      rw [husers]
      simp only [setPhase]
      rw [released_users (by rw [hu₁, hu]) hs₁, hu₁]
      simp only [Slot.unlock, List.head?_eq_none_iff]
    · rw [hfresh, ← hm₁]
      simp [setPhase]
    · rw [hworld, ← hm₁]
      simp [setPhase]
  · rw [if_neg hidle] at h
    have h₁ := h₁ (.leaving s t.reply)
    generalize hm₁ : (m.changeSlot s fun x => { x with flow := t.next }.unlock).setPhase i _ _ = m₁ at h h₁
    obtain ⟨k, rfl, m₂, h₂, husers, hfresh, hworld, hk⟩ := move_leave h₁.call rfl h₁.slot h hrest
    refine ⟨k, Nat.le_succ k, m₂, .finish hc hu hs (h₁.trans h₂) ?_ ?_ ?_, hk⟩
    · rw [husers, if_neg fun h => hidle h.1, ← hm₁]
      simp [setPhase]
    · rw [hfresh, ← hm₁]
      simp [setPhase]
    · rw [hworld, ← hm₁]
      simp [setPhase]

/-- The moves of a turn begin with one of the list. -/
theorem Settled.move (hm : m.Settled) {n : Nat} (h : m.moves settings env i (n + 1) = some m') (hrest : m'.Rests i) :
    ∃ k ≤ n, ∃ m₁, Move settings env m i m₁ ∧ m₁.moves settings env i k = some m' := by
  cases hc : m.calls.find? i with
  | none => simp [moves, step, hc] at h
  | some c =>
    obtain ⟨user, event, phase⟩ := c
    obtain ⟨event, rfl, hphase⟩ := hm.calls i _ hc
    rcases hphase with rfl | ⟨reply, rfl⟩ | ⟨s, hu, rfl | ⟨p, rfl⟩⟩
    · cases hu : m.users.find? user with
      | none => exact move_create hc hu h hrest
      | some s =>
        obtain ⟨x, hs⟩ := hm.slots user s hu
        exact move_enter hc hu hs h hrest
    · rw [moves, step_finished hc rfl] at h
      cases h
    · obtain ⟨x, hs⟩ := hm.slots user s hu
      obtain ⟨m₁, hstep, h⟩ := Option.bind_eq_some_iff.1 h
      obtain ⟨hh, rfl⟩ := step_queued hc hs hstep
      exact ⟨n, Nat.le_refl n, m.setPhase i _ _,
        .begin hc hs hh ⟨fun j => find?_calls_setPhase .., find?_slots_self hs⟩ rfl rfl rfl, h⟩
    · obtain ⟨x, hs⟩ := hm.slots user s hu
      by_cases hp : ∃ t, p = .done t
      · obtain ⟨t, rfl⟩ := hp
        exact move_finish hc hu hs h hrest
      · have hp : ∀ t, p ≠ .done t := fun t ht => hp ⟨t, ht⟩
        have h := moves_of_step (step_working hp hc rfl) h
        exact ⟨n, Nat.le_refl n, setPhase { m with world := (p.advance env m.world).2 } i _ _,
          .advance hc hs hp ⟨fun j => find?_calls_setPhase .., find?_slots_self hs⟩ rfl rfl rfl, h⟩

theorem inOrder_of_arrived {c : InFlight} (hc : m.calls.find? i = some c) (hphase : c.phase ≠ .arriving) :
    m.InOrder i := by
  intro c' hc' hp
  rw [hc] at hc'
  cases hc'
  exact absurd hp hphase

/-- A call that has moved has arrived. -/
theorem Move.inOrder (h : Move settings env m i m') : m'.InOrder i := by
  cases h with
  | enter _ _ _ h | create _ _ h | begin _ _ _ h | advance _ _ _ h | finish _ _ _ h =>
    exact inOrder_of_arrived h.call nofun

theorem Move.others (h : Move settings env m i m') {j : Nat} (hj : j ≠ i) : m'.calls.find? j = m.calls.find? j := by
  cases h with
  | enter _ _ _ h | create _ _ h | begin _ _ _ h | advance _ _ _ h | finish _ _ _ h => rw [h.calls, if_neg hj]

/-- What every move from one rest to the next keeps is kept by a turn. -/
theorem Turn.induction {P : Slots σ τ → Prop} (settled : ∀ m, P m → m.Settled)
    (keep : ∀ m m', P m → m.InOrder i → Move settings env m i m' → P m') (hP : P m) (ho : m.InOrder i)
    (h : Turn settings env i m m') : P m' := by
  obtain ⟨n, hn, hrest⟩ := h
  -- A move of the list takes up several moves of the turn, so the induction is on their number.
  induction n using Nat.strongRecOn generalizing m with
  | ind n ih =>
    obtain ⟨k, hk, m₁, hmove, hrests⟩ := (settled m hP).move hn hrest
    have hP₁ := keep m m₁ hP ho hmove
    cases k with
    | zero =>
      cases hrests
      exact hP₁
    | succ k => exact ih k (by omega) hP₁ hmove.inOrder hrests

theorem Interleaving.induction {P : Slots σ τ → Prop} (settled : ∀ m, P m → m.Settled)
    (keep : ∀ m m' i, P m → m.InOrder i → Move settings env m i m' → P m') (hP : P m)
    (h : Interleaving settings env m m') : P m' := by
  induction h with
  | refl => exact hP
  | turn _ i ho ht ih => exact Turn.induction settled (fun m m' => keep m m' i) ih ho ht

theorem Interleaving.trans {m'' : Slots σ τ} (h : Interleaving settings env m m')
    (h' : Interleaving settings env m' m'') : Interleaving settings env m m'' := by
  induction h' with
  | refl => exact h
  | turn _ i ho ht ih => exact .turn ih i ho ht

/-! ### Turns that can be taken -/

private theorem moves_step {n : Nat} {m₁ : Slots σ τ} (hstep : m.step settings env i = some m₁)
    (h : m₁.moves settings env i n = some m') : m.moves settings env i (n + 1) = some m' := by
  rw [moves, hstep]
  exact h

private theorem find?_calls_self (m : Slots σ τ) (i : Nat) (c : InFlight) (phase : Phase) :
    (m.setPhase i c phase).calls.find? i = some { c with phase } := by
  rw [find?_calls_setPhase, if_pos rfl]

private theorem step_begin (hc : m.calls.find? i = some ⟨user, some event, .queued s⟩)
    (hs : m.slots.find? s = some x) (hh : x.holder = some i) : m.step settings env i =
      some (m.setPhase i ⟨user, some event, .queued s⟩ (.working s (respond settings user x.flow event))) := by
  simp only [step, hc, hs, Option.bind_eq_bind, Option.bind_some, Option.pure_def]
  rw [guard, if_pos hh]
  rfl

/-- A call that arrives can ask for the lock of its user's slot. -/
theorem exists_turn_of_arriving (settings : Settings) (env : Surroundings σ τ)
    (hc : m.calls.find? i = some ⟨user, some event, .arriving⟩) : ∃ m', Turn settings env i m m' := by
  have hask : ∀ {s m₁}, m.step settings env i = some m₁ → m₁.calls.find? i = some ⟨user, some event, .holding s⟩ →
      ∃ m', Turn settings env i m m' := fun hstep hc₁ =>
    ⟨_, 1, moves_step hstep (moves_step (step_ask hc₁ rfl) rfl), _, find?_calls_self .., rfl⟩
  cases hu : m.users.find? user with
  | none => exact hask (step_create hc hu) (find?_calls_self ..)
  | some s => exact hask (step_enter hc hu) (find?_calls_self ..)

private theorem exists_step_of_working (settings : Settings) (env : Surroundings σ τ) {p : Procedure Transition}
    (hc : m.calls.find? i = some ⟨user, some event, .working s p⟩) (hp : ∀ t, p ≠ .done t) :
    ∃ m₁, m.step settings env i = some m₁ ∧
      m₁.calls.find? i = some ⟨user, some event, .working s (p.advance env m.world).1⟩ :=
  ⟨_, step_working hp hc rfl, find?_calls_self ..⟩

/-- A call that works can go on to the end. -/
theorem exists_turn_of_working (settings : Settings) (env : Surroundings σ τ) {p : Procedure Transition}
    (hc : m.calls.find? i = some ⟨user, some event, .working s p⟩) :
    ∃ m' reply, Turn settings env i m m' ∧ m'.calls.find? i = some ⟨user, some event, .finished reply⟩ := by
  suffices ∃ n m' reply, m.moves settings env i (n + 1) = some m' ∧
      m'.calls.find? i = some ⟨user, some event, .finished reply⟩ by
    obtain ⟨n, m', reply, hmoves, hc'⟩ := this
    exact ⟨m', reply, ⟨n, hmoves, _, hc', rfl⟩, hc'⟩
  have hleave : ∀ {m : Slots σ τ} {reply}, m.calls.find? i = some ⟨user, some event, .leaving s reply⟩ →
      ∃ m', m.moves settings env i 1 = some m' ∧ m'.calls.find? i = some ⟨user, some event, .finished reply⟩ :=
    fun hc => ⟨_, moves_step (step_leave hc rfl) rfl, find?_calls_self ..⟩
  induction p generalizing m with
  | done t =>
    have hcommit : m.step settings env i = _ := step_commit hc rfl
    by_cases hidle : t.next = .idle
    · rw [if_pos hidle] at hcommit
      have hc₁ := find?_calls_self (m.changeSlot s fun x => { x with flow := t.next }.unlock) i
        ⟨user, some event, .working s (.done t)⟩ (.committed s t.reply)
      have hrelease : Slots.step settings env _ i = _ := step_release hc₁ rfl
      obtain ⟨m', hmoves, hc'⟩ := hleave (find?_calls_self _ i ⟨user, some event, .committed s t.reply⟩ _)
      exact ⟨2, m', t.reply, moves_step hcommit (moves_step hrelease hmoves), hc'⟩
    · rw [if_neg hidle] at hcommit
      obtain ⟨m', hmoves, hc'⟩ := hleave (find?_calls_self _ i ⟨user, some event, .working s (.done t)⟩ _)
      exact ⟨1, m', t.reply, moves_step hcommit hmoves, hc'⟩
  | lookUp _ _ ih | store _ _ _ _ ih | forget _ _ ih | extend _ _ _ ih | call _ _ ih | choose _ _ ih =>
    obtain ⟨m₁, hstep, hc₁⟩ := exists_step_of_working settings env hc nofun
    obtain ⟨n, m', reply, hmoves, hc'⟩ := ih _ hc₁
    exact ⟨n + 1, m', reply, moves_step hstep hmoves, hc'⟩

/-- A call that has the lock can go on to the end. -/
theorem exists_turn_of_queued (settings : Settings) (env : Surroundings σ τ)
    (hc : m.calls.find? i = some ⟨user, some event, .queued s⟩) (hs : m.slots.find? s = some x)
    (hh : x.holder = some i) :
    ∃ m' reply, Turn settings env i m m' ∧ m'.calls.find? i = some ⟨user, some event, .finished reply⟩ := by
  obtain ⟨m', reply, ⟨n, hmoves, hrest⟩, hc'⟩ := exists_turn_of_working settings env
    (find?_calls_self m i ⟨user, some event, .queued s⟩ (.working s (respond settings user x.flow event)))
  exact ⟨m', reply, ⟨n + 1, moves_step (step_begin hc hs hh) hmoves, hrest⟩, hc'⟩

end

end Slots

end VaultChat.Engine
