import VaultChat.KeyMap
import VaultChat.Engine.Respond

/-!
# The engine

The engine keeps the dialogue of every user who is in one, and handles events one at a time.
-/

namespace VaultChat

open Chat

/-- The dialogues in progress and the world that they change.  A user without a dialogue is idle. -/
structure Engine (σ τ : Type) where
  flows : KeyMap UserId Flow
  world : Engine.World σ τ

namespace Engine

variable {σ τ : Type}

def start (w : World σ τ) : Engine σ τ := ⟨∅, w⟩

def flow (e : Engine σ τ) (user : UserId) : Flow := (e.flows.find? user).getD .idle

def activeUsers (e : Engine σ τ) : Nat := e.flows.size

/-- Puts a user's dialogue at a step.  Nothing is kept for one who is idle. -/
def setFlow (flows : KeyMap UserId Flow) (user : UserId) (flow : Flow) : KeyMap UserId Flow :=
  if flow = .idle then flows.erase user else flows.insert user flow

/-- Handles an event of a user. -/
def handle (settings : Settings) (env : Surroundings σ τ) (user : UserId) (event : Event) (e : Engine σ τ) :
    Reply × Engine σ τ :=
  let (t, w) := (respond settings user (e.flow user) event).run env e.world
  (t.reply, ⟨setFlow e.flows user t.next, w⟩)

end Engine

end VaultChat
