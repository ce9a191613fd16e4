/-!
# Decimal numerals

A numeral is a non-empty string of ASCII digits after an optional sign, read from left to right.  Reading stops at the
first character that is no digit and at the first digit that takes the value past its bound.  `readDigits_eq_ok_iff`
says that exactly the digit strings with a value in bounds are read.
-/

namespace VaultChat.Text

/-- Why a text is no numeral of the wanted type. -/
inductive NumeralFault where
  | empty
  | invalidDigit
  | tooLarge
  | tooSmall
  deriving DecidableEq, Repr

def NumeralFault.message : NumeralFault → String
  | .empty => "cannot parse integer from empty string"
  | .invalidDigit => "invalid digit found in string"
  | .tooLarge => "number too large to fit in target type"
  | .tooSmall => "number too small to fit in target type"

def isDigit (c : Char) : Bool := '0' ≤ c && c ≤ '9'

theorem toNat_of_isDigit {c : Char} (h : isDigit c = true) : 0x30 ≤ c.toNat ∧ c.toNat ≤ 0x39 := by
  simp only [isDigit, Bool.and_eq_true, decide_eq_true_eq] at h
  exact h

def digitValue (c : Char) : Nat := c.toNat - '0'.toNat

/-- The number that a string of digits continues, when `acc` was read before it. -/
def digitsValue (acc : Nat) (cs : List Char) : Nat := cs.foldl (fun n c => 10 * n + digitValue c) acc

/-- Reads digits on from `acc` and reports `excess` when the value passes `bound`. -/
def readDigits (bound : Nat) (excess : NumeralFault) : Nat → List Char → Except NumeralFault Nat
  | acc, [] => .ok acc
  | acc, c :: cs =>
    if !isDigit c then .error .invalidDigit
    else if bound < 10 * acc + digitValue c then .error excess
    else readDigits bound excess (10 * acc + digitValue c) cs

/-- An unsigned numeral of at most `bound`, with an optional plus sign. -/
def readNatural (bound : Nat) : List Char → Except NumeralFault Nat
  | [] => .error .empty
  | ['+'] | ['-'] => .error .invalidDigit
  | '+' :: cs | cs => readDigits bound .tooLarge 0 cs

/-- A signed numeral from `-(bound + 1)` to `bound`. -/
def readInteger (bound : Nat) : List Char → Except NumeralFault Int
  | [] => .error .empty
  | ['+'] | ['-'] => .error .invalidDigit
  | '-' :: cs => (readDigits (bound + 1) .tooSmall 0 cs).map fun n => -(n : Int)
  | '+' :: cs | cs => (readDigits bound .tooLarge 0 cs).map Int.ofNat

/-- The largest unsigned and signed numbers of 32 and 64 bits that numerals are read into. -/
def maxUnsigned32 : Nat := 0xFFFFFFFF

def maxUnsigned64 : Nat := 0xFFFFFFFFFFFFFFFF

def maxSigned64 : Nat := 0x7FFFFFFFFFFFFFFF

theorem le_digitsValue (acc : Nat) (cs : List Char) : acc ≤ digitsValue acc cs := by
  induction cs generalizing acc with
  | nil => exact Nat.le_refl _
  | cons c cs ih => exact Nat.le_trans (by omega) (ih (10 * acc + digitValue c))

theorem readDigits_eq_ok_iff {bound acc n : Nat} {excess : NumeralFault} {cs : List Char} (h : acc ≤ bound) :
    readDigits bound excess acc cs = .ok n ↔
      (∀ c ∈ cs, isDigit c = true) ∧ digitsValue acc cs = n ∧ n ≤ bound := by
  induction cs generalizing acc with
  | nil =>
    simp only [readDigits, digitsValue, List.foldl_nil, List.not_mem_nil, false_implies, implies_true, true_and,
      Except.ok.injEq]
    omega
  | cons c cs ih =>
    have hle := le_digitsValue (10 * acc + digitValue c) cs
    unfold readDigits
    by_cases hc : isDigit c = true
    · simp only [hc, Bool.not_true, Bool.false_eq_true, ↓reduceIte, List.mem_cons, forall_eq_or_imp, true_and]
      have hstep : digitsValue acc (c :: cs) = digitsValue (10 * acc + digitValue c) cs := rfl
      split
      · rw [hstep]
        simp only [reduceCtorEq, false_iff, not_and]
        intro _ he
        omega
      · rw [hstep]
        exact ih (by omega)
    · simp [hc]

end VaultChat.Text
