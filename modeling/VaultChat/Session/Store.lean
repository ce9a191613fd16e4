import VaultChat.Session.Cache
import VaultChat.User

/-!
# The session store

A session is a user's token under the user's key in an expiring cache.
-/

namespace VaultChat.Session

/-- How long a session lives unless told otherwise: a week. -/
def defaultTtlSeconds : Nat := 604800

/-- Which successful calls give a session a new lease. -/
inductive RefreshPolicy where
  | never
  | mutating
  | always
  deriving DecidableEq, Repr

namespace RefreshPolicy

/-- Whether a call that does or does not change anything refreshes the session. -/
def appliesTo : RefreshPolicy → Bool → Bool
  | .never, _ => false
  | .mutating, changes => changes
  | .always, _ => true

def name : RefreshPolicy → String
  | .never => "never"
  | .mutating => "mutating"
  | .always => "always"

def ofName? : String → Option RefreshPolicy
  | "never" => some .never
  | "mutating" => some .mutating
  | "always" => some .always
  | _ => none

end RefreshPolicy

namespace Cache

variable {σ : Type} (cache : Cache σ) (now : Instant) (user : UserId)

/-- Stores a token, in place of any other session of the user. -/
def putSession (token : Token) (ttl : Span) : σ → Except Error Unit × σ :=
  cache.set now user.sessionKey token.text ttl

/-- The live token of a user. -/
def session? (s : σ) : Except Error (Option Token) × σ :=
  let (r, s) := cache.get now user.sessionKey s
  (r.map (·.map Token.mk), s)

/-- Removes the session, and tells whether there was one. -/
def deleteSession : σ → Except Error Bool × σ := cache.delete now user.sessionKey

/-- Gives the session a new expiry, and tells whether there was one. -/
def touchSession (ttl : Span) : σ → Except Error Bool × σ := cache.expire now user.sessionKey ttl

end Cache

end VaultChat.Session
