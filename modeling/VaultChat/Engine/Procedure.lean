import VaultChat.Error
import VaultChat.Instant
import VaultChat.Password.Choices
import VaultChat.Session.Store

/-!
# Procedures

Handling an event asks things of its surroundings, one after the other: the session store, the vault, a source of
random choices.  A procedure is the tree of these requests, with a branch for every answer, and the result at the
leaves.  `Procedure.run` answers the requests from given surroundings, and `Procedure.advance` the first one only.
-/

namespace VaultChat.Engine

inductive Procedure (α : Type) where
  | done (result : α)
  | lookUp (user : UserId) (next : Except Error (Option Token) → Procedure α)
  | store (user : UserId) (token : Token) (ttl : Span) (next : Except Error Unit → Procedure α)
  | forget (user : UserId) (next : Except Error Bool → Procedure α)
  | extend (user : UserId) (ttl : Span) (next : Except Error Bool → Procedure α)
  | call (c : Vault.Call) (next : c.Answer → Procedure α)
  | choose (extra : Nat) (next : Password.Choices extra → Procedure α)

/-- What answers the requests of a procedure at one instant. -/
structure Surroundings (σ τ : Type) where
  now : Instant
  cache : Session.Cache σ
  vault : Vault.Service τ
  dice : (throw extra : Nat) → Password.Choices extra

/-- What requests change: the sessions, the vault, and how often the dice were thrown. -/
structure World (σ τ : Type) where
  sessions : σ
  vault : τ
  throws : Nat

namespace Procedure

variable {α β σ τ : Type}

def bind : Procedure α → (α → Procedure β) → Procedure β
  | .done a, f => f a
  | .lookUp user next, f => .lookUp user fun r => (next r).bind f
  | .store user token ttl next, f => .store user token ttl fun r => (next r).bind f
  | .forget user next, f => .forget user fun r => (next r).bind f
  | .extend user ttl next, f => .extend user ttl fun r => (next r).bind f
  | .call c next, f => .call c fun r => (next r).bind f
  | .choose extra next, f => .choose extra fun r => (next r).bind f

instance : Monad Procedure where
  pure := .done
  bind := Procedure.bind

/-- Answers the first request, if there is one. -/
def advance (env : Surroundings σ τ) (w : World σ τ) : Procedure α → Procedure α × World σ τ
  | .done a => (.done a, w)
  | .lookUp user next =>
    let (r, s) := env.cache.session? env.now user w.sessions
    (next r, { w with sessions := s })
  | .store user token ttl next =>
    let (r, s) := env.cache.putSession env.now user token ttl w.sessions
    (next r, { w with sessions := s })
  | .forget user next =>
    let (r, s) := env.cache.deleteSession env.now user w.sessions
    (next r, { w with sessions := s })
  | .extend user ttl next =>
    let (r, s) := env.cache.touchSession env.now user ttl w.sessions
    (next r, { w with sessions := s })
  | .call c next =>
    let (r, v) := env.vault.respond c w.vault
    (next r, { w with vault := v })
  | .choose extra next => (next (env.dice w.throws extra), { w with throws := w.throws + 1 })

/-- Answers all requests in turn. -/
def run (env : Surroundings σ τ) : Procedure α → World σ τ → α × World σ τ
  | .done a, w => (a, w)
  | .lookUp user next, w =>
    let (r, s) := env.cache.session? env.now user w.sessions
    (next r).run env { w with sessions := s }
  | .store user token ttl next, w =>
    let (r, s) := env.cache.putSession env.now user token ttl w.sessions
    (next r).run env { w with sessions := s }
  | .forget user next, w =>
    let (r, s) := env.cache.deleteSession env.now user w.sessions
    (next r).run env { w with sessions := s }
  | .extend user ttl next, w =>
    let (r, s) := env.cache.touchSession env.now user ttl w.sessions
    (next r).run env { w with sessions := s }
  | .call c next, w =>
    let (r, v) := env.vault.respond c w.vault
    (next r).run env { w with vault := v }
  | .choose extra next, w => (next (env.dice w.throws extra)).run env { w with throws := w.throws + 1 }

theorem run_advance (env : Surroundings σ τ) (p : Procedure α) (w : World σ τ) :
    (p.advance env w).1.run env (p.advance env w).2 = p.run env w := by
  cases p <;> rfl

theorem run_bind (env : Surroundings σ τ) (p : Procedure α) (f : α → Procedure β) (w : World σ τ) :
    (p >>= f).run env w = (f (p.run env w).1).run env (p.run env w).2 := by
  change (p.bind f).run env w = _
  induction p generalizing w with
  | done a => rfl
  | lookUp user next ih => exact ih _ _
  | store user token ttl next ih => exact ih _ _
  | forget user next ih => exact ih _ _
  | extend user ttl next ih => exact ih _ _
  | call c next ih => exact ih _ _
  | choose extra next ih => exact ih _ _

/-! ### Single requests -/

def session (user : UserId) : Procedure (Except Error (Option Token)) := .lookUp user .done

def storeSession (user : UserId) (token : Token) (ttl : Span) : Procedure (Except Error Unit) :=
  .store user token ttl .done

def forgetSession (user : UserId) : Procedure (Except Error Bool) := .forget user .done

def extendSession (user : UserId) (ttl : Span) : Procedure (Except Error Bool) := .extend user ttl .done

def ask (c : Vault.Call) : Procedure c.Answer := .call c .done

def choices (extra : Nat) : Procedure (Password.Choices extra) := .choose extra .done

end Procedure

end VaultChat.Engine
