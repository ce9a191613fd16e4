import VaultChat.Engine.Slots

/-!
# Gatherings

Several events handled at once by one thread: the calls take turns in the order of the events, and a turn lasts until
the call has to wait for a lock or for the vault, whose every answer takes a number of turns.
-/

namespace VaultChat.Engine

open Chat

/-- The call is about to ask the vault. -/
def Phase.asksVault : Phase → Bool
  | .working _ (.call ..) => true
  | _ => false

namespace Slots

variable {σ τ : Type}

/-- One turn of call `i`, of at most `fuel` moves.  `pauses` holds how many more turns the answer to a call takes. -/
def turn (settings : Settings) (env : Surroundings σ τ) (yields : Nat) (i : Nat) :
    (fuel : Nat) → Slots σ τ × KeyMap Nat Nat → Slots σ τ × KeyMap Nat Nat
  | 0, s => s
  | fuel + 1, (m, pauses) =>
    let asking := (m.calls.find? i).any (·.phase.asksVault)
    let left := (pauses.find? i).getD yields
    if asking && 0 < left then (m, pauses.insert i (left - 1))
    else
      match m.step settings env i with
      | some m => turn settings env yields i fuel (m, if asking then pauses.erase i else pauses)
      | none => (m, pauses)

/-- More moves than any turn has. -/
def movesPerTurn : Nat := 32

/-- A number of rounds in which every call has its turn. -/
def rounds (settings : Settings) (env : Surroundings σ τ) (yields calls : Nat) :
    (n : Nat) → Slots σ τ × KeyMap Nat Nat → Slots σ τ × KeyMap Nat Nat
  | 0, s => s
  | n + 1, s =>
    rounds settings env yields calls n
      ((List.range calls).foldl (fun s i => turn settings env yields i movesPerTurn s) s)

def replyOf (m : Slots σ τ) (i : Nat) : Reply :=
  match (m.calls.find? i).map InFlight.phase with
  | some (.finished reply) => reply
  | _ => []

end Slots

/-- Handles events at once and gives their replies in the order of the events. -/
def handleTogether {σ τ : Type} (settings : Settings) (env : Surroundings σ τ) (yields : Nat)
    (events : List (UserId × Event)) (e : Engine σ τ) : List Reply × Engine σ τ :=
  let m := Slots.ofEngine e
  let calls := events.zipIdx.foldl (fun calls p => calls.insert p.2 ⟨p.1.1, some p.1.2, .arriving⟩) m.calls
  let count := events.length
  let (m, _) := Slots.rounds settings env yields count (count * (yields + 1) + 1) ({ m with calls }, ∅)
  ((List.range count).map m.replyOf, m.toEngine)

end VaultChat.Engine
