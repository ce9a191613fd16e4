import VaultChat.Instant

/-!
# Sums of time

Time that is added to an instant of the calendar is added exactly, and a sum beyond the last nanosecond stops there
(`expiryAfter_nanos`, `advance_nanos`).  A span that is too long for a distance would leave the calendar from any of
its instants, so that nothing is lost when it is cut.  Hence clocks go forward only, stretches of time can be taken
together, and what is asked to live longer, or from a later time on, does not end earlier (`sums_saturate`).
-/

namespace VaultChat.Instant

/-- The first nanosecond of the calendar. -/
def earliest : Instant := ⟨-8334601228800000000000, by decide⟩

/-- A sum that is in the calendar is exact. -/
theorem add?_nanos (now : Instant) (distance : Int) :
    ((now.add? distance).getD latest).nanos = min (now.nanos + distance) latestNanos := by
  unfold add?
  by_cases h : now.nanos + distance ≤ latestNanos
  · rw [dif_pos h, Int.min_eq_left h]
    rfl
  · rw [dif_neg h, Int.min_eq_right (Int.le_of_lt (Int.not_le.1 h))]
    rfl

theorem distance?_eq (span : Span) :
    span.distance? = some (span.nanos : Int) ∧ span.nanos ≤ Span.maxDistance ∨
      span.distance? = none ∧ Span.maxDistance < span.nanos := by
  unfold Span.distance?
  by_cases h : span.nanos ≤ Span.maxDistance
  · exact .inl ⟨if_pos h, h⟩
  · exact .inr ⟨if_neg h, Nat.not_le.1 h⟩

/-- The whole calendar is shorter than the longest distance. -/
theorem latestNanos_le_add {now : Instant} (h : earliest ≤ now) {n : Nat} (hn : Span.maxDistance ≤ n) :
    latestNanos ≤ now.nanos + n := by
  have hnow : -8334601228800000000000 ≤ now.nanos := h
  have hlong : 9223372036854775807 * 1000000 ≤ n := hn
  unfold latestNanos
  omega

/-- Time to live is added exactly, up to the end of the calendar. -/
theorem expiryAfter_nanos {now : Instant} (h : earliest ≤ now) (ttl : Span) :
    (now.expiryAfter ttl).nanos = min (now.nanos + ttl.nanos) latestNanos := by
  unfold expiryAfter
  obtain ⟨hd, -⟩ | ⟨hd, hlong⟩ := distance?_eq ttl
  · rw [hd, Option.bind_some, add?_nanos]
  · have hlate := latestNanos_le_add h (Nat.le_of_lt hlong)
    rw [hd, Option.bind_none, Int.min_eq_right hlate]
    rfl

/-- A clock is moved exactly, up to the end of the calendar. -/
theorem advance_nanos {now : Instant} (h : earliest ≤ now) (span : Span) :
    (now.advance span).nanos = min (now.nanos + span.nanos) latestNanos := by
  unfold advance
  rw [add?_nanos]
  obtain ⟨hd, -⟩ | ⟨hd, hlong⟩ := distance?_eq span
  · rw [hd, Option.getD_some]
  · -- A span that is too long is cut to the longest distance, and this one is too long already.
    have hcut := latestNanos_le_add h (Nat.le_refl Span.maxDistance)
    have hlate := latestNanos_le_add h (Nat.le_of_lt hlong)
    rw [hd, Option.getD_none, Int.min_eq_right hcut, Int.min_eq_right hlate]

/-- A clock never goes back, also one that is set to a time before the calendar. -/
theorem le_advance (now : Instant) (span : Span) : now ≤ now.advance span := by
  have hlatest := now.le_latest
  rw [le_iff, advance, add?_nanos]
  obtain ⟨hd, -⟩ | ⟨hd, -⟩ := distance?_eq span <;> rw [hd]
  · rw [Option.getD_some]
    omega
  · rw [Option.getD_none]
    omega

/-- Both sums are exact up to the end of the calendar and stop there.  A clock never goes back, and two moves of it
come to the same as one over both stretches of time.  An expiry is no earlier for a later start and a longer life. -/
theorem sums_saturate {now : Instant} (h : earliest ≤ now) :
    (∀ ttl, (now.expiryAfter ttl).nanos = min (now.nanos + ttl.nanos) latestNanos) ∧
    (∀ span, (now.advance span).nanos = min (now.nanos + span.nanos) latestNanos ∧ now ≤ now.advance span) ∧
    (∀ first second : Span, (now.advance first).advance second = now.advance ⟨first.nanos + second.nanos⟩) ∧
    ∀ later (short long : Span), now ≤ later → short.nanos ≤ long.nanos →
      now.expiryAfter short ≤ later.expiryAfter long := by
  refine ⟨expiryAfter_nanos h, fun span => ⟨advance_nanos h span, le_advance now span⟩, fun first second => ?_, ?_⟩
  · have hnext : earliest ≤ now.advance first := Int.le_trans h (le_advance now first)
    have hsum : ((⟨first.nanos + second.nanos⟩ : Span).nanos : Int) = first.nanos + second.nanos :=
      Int.natCast_add _ _
    apply ext_nanos
    rw [advance_nanos hnext, advance_nanos h, advance_nanos h, hsum]
    omega
  · intro later short long hlater hspan
    have hnanos : now.nanos ≤ later.nanos := hlater
    rw [le_iff, expiryAfter_nanos h, expiryAfter_nanos (Int.le_trans h hlater)]
    omega

/-- From the first nanosecond of the calendar, the longest span that is counted in seconds of 64 bits and nanoseconds.
Two moves that together reach the last nanosecond, and one nanosecond less. -/
theorem sums_saturate_longest :
    let longest : Span := ⟨18446744073709551615 * 1000000000 + 999999999⟩
    let first : Span := ⟨8334601228800 * 1000000000⟩
    let second : Span := ⟨8210266876799 * 1000000000 + 999999999⟩
    earliest ≤ earliest ∧ longest.distance? = none ∧ earliest.expiryAfter longest = latest ∧
      earliest.advance longest = latest ∧ (earliest.advance first).advance second = latest ∧
      earliest.expiryAfter ⟨first.nanos + second.nanos - 1⟩ ≤ earliest.expiryAfter longest := by
  intro longest first second
  have hle : earliest ≤ earliest := Int.le_refl _
  obtain ⟨hexpiry, hadvance, htwice, hmono⟩ := sums_saturate hle
  refine ⟨hle, by decide, ext_nanos ((hexpiry longest).trans (by decide)),
    ext_nanos ((hadvance longest).1.trans (by decide)), ?_, hmono _ _ _ hle (by decide)⟩
  rw [htwice]
  exact ext_nanos ((hadvance _).1.trans (by decide))

end VaultChat.Instant
