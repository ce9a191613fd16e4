/-!
# Instants and spans

Time is counted in nanoseconds.  A span is never negative and an instant is never later than `Instant.latest`.  A sum
that would be later stops there, also where the span is too long to be added at all.
-/

namespace VaultChat

/-- A length of time in nanoseconds. -/
structure Span where
  nanos : Nat
  deriving DecidableEq, Repr

namespace Span

def ofSeconds (s : Nat) : Span := ⟨s * 1000000000⟩

/-- The longest distance that can be added to an instant: the most milliseconds that 63 bits count. -/
def maxDistance : Nat := 9223372036854775807 * 1000000

/-- The span as a distance to add, if it is not too long for one. -/
def distance? (s : Span) : Option Int := if s.nanos ≤ maxDistance then some s.nanos else none

end Span

/-- The last nanosecond of the calendar, counted from the start of 1970. -/
def latestNanos : Int := 8210266876799999999999

/-- A point in time, in nanoseconds from the start of 1970. -/
structure Instant where
  nanos : Int
  le_latest : nanos ≤ latestNanos
  deriving DecidableEq

namespace Instant

instance : LT Instant := ⟨fun a b => a.nanos < b.nanos⟩

instance : LE Instant := ⟨fun a b => a.nanos ≤ b.nanos⟩

instance (a b : Instant) : Decidable (a < b) := inferInstanceAs (Decidable (a.nanos < b.nanos))

instance (a b : Instant) : Decidable (a ≤ b) := inferInstanceAs (Decidable (a.nanos ≤ b.nanos))

theorem lt_iff {a b : Instant} : a < b ↔ a.nanos < b.nanos := Iff.rfl

theorem le_iff {a b : Instant} : a ≤ b ↔ a.nanos ≤ b.nanos := Iff.rfl

theorem ext_nanos {a b : Instant} (h : a.nanos = b.nanos) : a = b := by
  cases a
  cases b
  cases h
  rfl

def latest : Instant := ⟨latestNanos, Int.le_refl _⟩

/-- The instant with the given count, or the latest one where there is none. -/
def ofNanos (n : Int) : Instant := if h : n ≤ latestNanos then ⟨n, h⟩ else latest

/-- The instant at a distance, if the calendar has it. -/
def add? (t : Instant) (distance : Int) : Option Instant :=
  if h : t.nanos + distance ≤ latestNanos then some ⟨t.nanos + distance, h⟩ else none

/-- When something that is to live for `ttl` from now on ends. -/
def expiryAfter (now : Instant) (ttl : Span) : Instant := (ttl.distance?.bind now.add?).getD latest

/-- Where a clock stands once it is moved forward. -/
def advance (now : Instant) (span : Span) : Instant :=
  (now.add? (span.distance?.getD Span.maxDistance)).getD latest

/-- Whole milliseconds from the start of 1970, rounded down. -/
def millis (t : Instant) : Int := t.nanos.fdiv 1000000

theorem millis_le_millis {a b : Instant} (h : a ≤ b) : a.millis ≤ b.millis := by
  have h' : a.nanos ≤ b.nanos := h
  simp only [millis, Int.fdiv_eq_ediv_of_nonneg _ (show (0 : Int) ≤ 1000000 by decide)]
  omega

/-- Whole seconds from the start of 1970, rounded down, and the nanoseconds left over. -/
def seconds (t : Instant) : Int := t.nanos.fdiv 1000000000

def subsecond (t : Instant) : Nat := (t.nanos.fmod 1000000000).toNat

end Instant

end VaultChat
