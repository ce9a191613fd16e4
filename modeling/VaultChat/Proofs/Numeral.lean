import VaultChat.Proofs.Input

/-!
# Natural numbers as they are written

An unsigned numeral is a string of digits, perhaps behind a plus sign, of a value within a bound.  There may be any
number of zeros in front.  `readNatural_eq_ok_iff` says that these are the numerals that are read, and as what.
-/

namespace VaultChat.Text

/-- The text is a natural number of at most `bound`: digits after an optional plus sign. -/
inductive IsNatural (bound : Nat) : List Char → Nat → Prop where
  | unsigned {ds : List Char} (hne : ds ≠ []) (hd : ∀ c ∈ ds, isDigit c = true) (hb : digitsValue 0 ds ≤ bound) :
      IsNatural bound ds (digitsValue 0 ds)
  | plus {ds : List Char} (hne : ds ≠ []) (hd : ∀ c ∈ ds, isDigit c = true) (hb : digitsValue 0 ds ≤ bound) :
      IsNatural bound ('+' :: ds) (digitsValue 0 ds)

variable {bound n : Nat} {cs ds : List Char}

theorem IsNatural.le (h : IsNatural bound cs n) : n ≤ bound := by
  cases h with
  | unsigned _ _ hb => exact hb
  | plus _ _ hb => exact hb

/-- A string of digits is a natural number exactly if its value is within the bound. -/
theorem isNatural_digits_iff (hne : ds ≠ []) (hd : ∀ c ∈ ds, isDigit c = true) :
    IsNatural bound ds n ↔ digitsValue 0 ds = n ∧ n ≤ bound := by
  constructor
  · intro h
    cases h with
    | unsigned _ _ hb => exact ⟨rfl, hb⟩
    | plus => exact absurd (hd '+' List.mem_cons_self) (by decide)
  · rintro ⟨rfl, hb⟩
    exact .unsigned hne hd hb

theorem readNatural_plus (hne : ds ≠ []) : readNatural bound ('+' :: ds) = readDigits bound .tooLarge 0 ds := by
  obtain ⟨d, ds, rfl⟩ := List.exists_cons_of_ne_nil hne
  rfl

theorem readNatural_eq_ok_iff : readNatural bound cs = .ok n ↔ IsNatural bound cs n := by
  constructor
  · intro h
    unfold readNatural at h
    split at h
    · cases h
    · cases h
    · cases h
    · rename_i hne
      obtain ⟨hd, rfl, hb⟩ := (readDigits_eq_ok_iff (Nat.zero_le bound)).1 h
      exact .plus hne hd hb
    · rename_i hne _ _ _
      obtain ⟨hd, rfl, hb⟩ := (readDigits_eq_ok_iff (Nat.zero_le bound)).1 h
      exact .unsigned hne hd hb
  · intro h
    cases h with
    | unsigned hne hd hb =>
      rw [readNatural_of_digits hne hd]
      exact (readDigits_eq_ok_iff (Nat.zero_le bound)).2 ⟨hd, rfl, hb⟩
    | plus hne hd hb =>
      rw [readNatural_plus hne]
      exact (readDigits_eq_ok_iff (Nat.zero_le bound)).2 ⟨hd, rfl, hb⟩

end VaultChat.Text
