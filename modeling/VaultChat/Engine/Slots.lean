import VaultChat.Engine.Basic

/-!
# Slots

Events of many users are handled at once.  Each user in a dialogue has a slot, which holds the dialogue and a lock
that is granted in the order of asking.  A call looks the slot up or creates it, asks for the lock, works on the
dialogue, commits the next step and gives the lock back.  If that step is idle the call then removes the slot,
provided that the map still holds this very slot, that no other call has a handle on it and that it is unlocked and
idle.  `step` makes one such move of one call.
-/

namespace VaultChat.Engine

open Chat

structure Slot where
  flow : Flow
  /-- The call that has the lock, and those that have asked for it since. -/
  holder : Option Nat
  waiting : List Nat
  /-- How many calls have a handle on the slot. -/
  handles : Nat

namespace Slot

def ask (s : Slot) (call : Nat) : Slot :=
  if s.holder.isNone then { s with holder := some call } else { s with waiting := s.waiting ++ [call] }

/-- Gives the lock to the call that has waited longest. -/
def unlock (s : Slot) : Slot := { s with holder := s.waiting.head?, waiting := s.waiting.tail }

def take (s : Slot) : Slot := { s with handles := s.handles + 1 }

def drop (s : Slot) : Slot := { s with handles := s.handles - 1 }

end Slot

/-- How far a call has come. -/
inductive Phase where
  | arriving
  | holding (slot : Nat)
  | queued (slot : Nat)
  | working (slot : Nat) (rest : Procedure Transition)
  | committed (slot : Nat) (reply : Reply)
  | leaving (slot : Nat) (reply : Reply)
  | finished (reply : Reply)
  | seen (flow : Flow)

/-- A call handles an event, or looks at the dialogue where there is no event. -/
structure InFlight where
  user : UserId
  event : Option Event
  phase : Phase

structure Slots (σ τ : Type) where
  users : KeyMap UserId Nat
  slots : KeyMap Nat Slot
  fresh : Nat
  calls : KeyMap Nat InFlight
  world : World σ τ

namespace Slots

variable {σ τ : Type}

/-- Changes a slot, if there is one of that number. -/
def changeSlot (m : Slots σ τ) (slot : Nat) (f : Slot → Slot) : Slots σ τ :=
  match m.slots.find? slot with
  | some s => { m with slots := m.slots.insert slot (f s) }
  | none => m

def setPhase (m : Slots σ τ) (i : Nat) (c : InFlight) (phase : Phase) : Slots σ τ :=
  { m with calls := m.calls.insert i { c with phase } }

/-- The slot may be removed from the map by the call that has just committed an idle step. -/
def releasable (m : Slots σ τ) (user : UserId) (slot : Nat) : Bool :=
  m.users.find? user == some slot &&
    match m.slots.find? slot with
    | some s => s.handles == 1 && s.holder.isNone && decide (s.flow = .idle)
    | none => false

/-- The next move of call `i`, unless it is over or waits for a lock. -/
def step (settings : Settings) (env : Surroundings σ τ) (m : Slots σ τ) (i : Nat) : Option (Slots σ τ) := do
  let c ← m.calls.find? i
  match c.phase with
  | .arriving =>
    match m.users.find? c.user, c.event with
    | some slot, _ => return (m.changeSlot slot .take).setPhase i c (.holding slot)
    | none, none => return m.setPhase i c (.seen .idle)
    | none, some _ =>
      let m := { m with
        users := m.users.insert c.user m.fresh
        slots := m.slots.insert m.fresh ⟨.idle, none, [], 1⟩
        fresh := m.fresh + 1 }
      return m.setPhase i c (.holding (m.fresh - 1))
  | .holding slot => return (m.changeSlot slot (·.ask i)).setPhase i c (.queued slot)
  | .queued slot =>
    let s ← m.slots.find? slot
    guard (s.holder = some i)
    match c.event with
    | some event => return m.setPhase i c (.working slot (respond settings c.user s.flow event))
    | none => return (m.changeSlot slot fun s => s.unlock.drop).setPhase i c (.seen s.flow)
  | .working slot (.done t) =>
    let m := m.changeSlot slot fun s => { s with flow := t.next }.unlock
    return m.setPhase i c (if t.next = .idle then .committed slot t.reply else .leaving slot t.reply)
  | .working slot rest =>
    let (rest, w) := rest.advance env m.world
    return { m with world := w }.setPhase i c (.working slot rest)
  | .committed slot reply =>
    let m := if m.releasable c.user slot then { m with users := m.users.erase c.user } else m
    return m.setPhase i c (.leaving slot reply)
  | .leaving slot reply => return (m.changeSlot slot .drop).setPhase i c (.finished reply)
  | .finished _ | .seen _ => none

/-- Nothing in flight: a slot for each user in a dialogue. -/
def ofEngine (e : Engine σ τ) : Slots σ τ :=
  e.flows.pairs.foldl
    (fun m p => { m with
      users := m.users.insert p.1 m.fresh
      slots := m.slots.insert m.fresh ⟨p.2, none, [], 0⟩
      fresh := m.fresh + 1 })
    ⟨∅, ∅, 0, ∅, e.world⟩

/-- The dialogue of a user as the slots have it. -/
def flow (m : Slots σ τ) (user : UserId) : Flow :=
  (((m.users.find? user).bind m.slots.find?).map Slot.flow).getD .idle

/-- The engine that is left when the slots are given up. -/
def toEngine (m : Slots σ τ) : Engine σ τ :=
  ⟨m.users.keys.foldl (fun flows user => flows.insert user (m.flow user)) ∅, m.world⟩

end Slots

end VaultChat.Engine
