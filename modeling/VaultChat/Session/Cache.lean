import VaultChat.Error
import VaultChat.Instant

/-!
# Expiring caches

A cache keeps a text under a key until its expiry.  `Cache` is what a client sees of one whose contents have type
`σ`; any operation may fail.
-/

namespace VaultChat.Session

structure Cache (σ : Type) where
  /-- The value of a key, if one is stored and has not expired. -/
  get : Instant → String → σ → Except Error (Option String) × σ
  /-- Stores a value, in place of any other. -/
  set : Instant → String → String → Span → σ → Except Error Unit × σ
  /-- Removes a key, and tells whether a live value was there. -/
  delete : Instant → String → σ → Except Error Bool × σ
  /-- Gives a live value a new expiry, and tells whether there was one. -/
  expire : Instant → String → Span → σ → Except Error Bool × σ

/-- Which operations fail, and with which error. -/
structure Faults where
  get : Option Error := none
  set : Option Error := none
  delete : Option Error := none
  expire : Option Error := none

/-- The cache with some operations failing before they touch the contents. -/
def Cache.withFaults {σ : Type} (cache : Cache σ) (faults : Faults) : Cache σ where
  get now key s := match faults.get with
    | some e => (.error e, s)
    | none => cache.get now key s
  set now key value ttl s := match faults.set with
    | some e => (.error e, s)
    | none => cache.set now key value ttl s
  delete now key s := match faults.delete with
    | some e => (.error e, s)
    | none => cache.delete now key s
  expire now key ttl s := match faults.expire with
    | some e => (.error e, s)
    | none => cache.expire now key ttl s

end VaultChat.Session
