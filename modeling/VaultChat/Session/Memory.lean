import VaultChat.KeyMap
import VaultChat.Session.Cache

/-!
# The cache in memory

Entries carry their expiry to the nanosecond and live while it is later than now.  An expired entry stays until an
operation meets it.
-/

namespace VaultChat.Session

structure MemoryEntry where
  value : String
  expiresAt : Instant
  deriving DecidableEq

abbrev Memory := KeyMap String MemoryEntry

namespace Memory

def get (now : Instant) (key : String) (m : Memory) : Option String × Memory :=
  match m.find? key with
  | some entry => if now < entry.expiresAt then (some entry.value, m) else (none, m.erase key)
  | none => (none, m)

def set (now : Instant) (key value : String) (ttl : Span) (m : Memory) : Memory :=
  m.insert key ⟨value, now.expiryAfter ttl⟩

def delete (now : Instant) (key : String) (m : Memory) : Bool × Memory :=
  match m.find? key with
  | some entry => (decide (now < entry.expiresAt), m.erase key)
  | none => (false, m)

def expire (now : Instant) (key : String) (ttl : Span) (m : Memory) : Bool × Memory :=
  match m.find? key with
  | some entry =>
    if now < entry.expiresAt then (true, m.insert key { entry with expiresAt := now.expiryAfter ttl })
    else (false, m.erase key)
  | none => (false, m)

end Memory

/-- The cache in memory, whose operations never fail. -/
def memoryCache : Cache Memory where
  get now key m := let r := m.get now key; (.ok r.1, r.2)
  set now key value ttl m := (.ok (), m.set now key value ttl)
  delete now key m := let r := m.delete now key; (.ok r.1, r.2)
  expire now key ttl m := let r := m.expire now key ttl; (.ok r.1, r.2)

end VaultChat.Session
