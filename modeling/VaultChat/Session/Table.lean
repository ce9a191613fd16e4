import VaultChat.KeyMap
import VaultChat.Session.Cache

/-!
# The cache in a database table

Rows carry their expiry in whole milliseconds, rounded down, and are compared with the clock rounded down in the same
way.  Every operation is made of a few statements on one table with a unique key.
-/

namespace VaultChat.Session

structure Row where
  value : String
  expiresAt : Int
  deriving DecidableEq

abbrev Table := KeyMap String Row

namespace Table

/-! ### Statements -/

/-- Deletes the row of a key if it satisfies `p`, and counts the deleted rows. -/
def deleteWhere (key : String) (p : Row → Bool) (t : Table) : Nat × Table :=
  match t.find? key with
  | some row => if p row then (1, t.erase key) else (0, t)
  | none => (0, t)

/-- Changes the row of a key if it satisfies `p`, and counts the changed rows. -/
def updateWhere (key : String) (p : Row → Bool) (f : Row → Row) (t : Table) : Nat × Table :=
  match t.find? key with
  | some row => if p row then (1, t.insert key (f row)) else (0, t)
  | none => (0, t)

/-! ### Operations -/

def get (now : Instant) (key : String) (t : Table) : Option String × Table :=
  match t.find? key with
  | some row =>
    if now.millis < row.expiresAt then (some row.value, t)
    else (none, (t.deleteWhere key fun r => r.expiresAt ≤ now.millis).2)
  | none => (none, t)

def set (now : Instant) (key value : String) (ttl : Span) (t : Table) : Table :=
  t.insert key ⟨value, (now.expiryAfter ttl).millis⟩

def delete (now : Instant) (key : String) (t : Table) : Bool × Table :=
  let (live, t) := t.deleteWhere key fun r => now.millis < r.expiresAt
  (decide (0 < live), (t.deleteWhere key fun _ => true).2)

def expire (now : Instant) (key : String) (ttl : Span) (t : Table) : Bool × Table :=
  let (affected, t) := t.updateWhere key (fun r => now.millis < r.expiresAt) fun r =>
    { r with expiresAt := (now.expiryAfter ttl).millis }
  (decide (0 < affected), t)

end Table

/-- The cache in a table of its own, whose operations never fail. -/
def tableCache : Cache Table where
  get now key t := let r := t.get now key; (.ok r.1, r.2)
  set now key value ttl t := (.ok (), t.set now key value ttl)
  delete now key t := let r := t.delete now key; (.ok r.1, r.2)
  expire now key ttl t := let r := t.expire now key ttl; (.ok r.1, r.2)

end VaultChat.Session
