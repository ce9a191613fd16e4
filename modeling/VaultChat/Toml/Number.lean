import VaultChat.Text.Numeral
import VaultChat.Toml.Text

/-!
# Numbers and moments

Integers in four bases, floats, dates and times.  Between two digits of a number may stand an underscore, which counts
for nothing.  Integers have 64 bits with a sign.  A float is kept as it is written, and is refused when its value is
too large for a double.  `exceedsDouble` decides that on the exact value.
-/

namespace VaultChat.Toml

open Text (Reader)
open Text.Reader

/-! ### Integers -/

/-- Digits that satisfy `p`, perhaps with single underscores between them. -/
def digits (p : Char → Bool) : Reader Char (List Char) := do
  return (← one p) :: (← many (discard (perhaps (exactly ['_'])) *> one p))

/-- The digits of a decimal number, of which only zero itself starts with a zero. -/
def plainDigits : Reader Char (List Char) := do
  if (← perhaps (exactly ['0'])).isSome then return ['0'] else digits Text.isDigit

/-- A plus or a minus, or neither. -/
def sign : Reader Char (List Char) := do
  match ← perhaps (one fun c => c == '+' || c == '-') with
  | some c => return [c]
  | none => return []

def decimal : Reader Char Int := do
  let sign ← sign
  let digits ← plainDigits
  match Text.readInteger Text.maxSigned64 (sign ++ digits) with
  | .ok n => return n
  | .error _ => failure

/-- A number in the base `b`, behind the mark of its base. -/
def based (mark : Char) (b : Nat) (p : Char → Bool) : Reader Char Int := do
  exactly ['0', mark]
  let n := (← digits p).foldl (fun n c => b * n + hexValue c) 0
  if n ≤ Text.maxSigned64 then return n else failure

def integer : Reader Char Int :=
  based 'x' 16 isHexDigit <|> based 'o' 8 (fun c => '0' ≤ c && c ≤ '7') <|>
    based 'b' 2 (fun c => c == '0' || c == '1') <|> decimal

/-! ### Floats -/

/-- From here on, a value is rounded to infinity: 54 one bits before 970 zero bits. -/
def doubleBound : Nat := 0x3FFFFFFFFFFFFF <<< 970

/-- The value of `m` behind the exponent `e` of ten is at least `doubleBound`, which has 309 digits. -/
def exceedsDouble (m : Nat) (e : Int) : Bool :=
  let size : Int := (Nat.toDigits 10 m).length + e
  if m = 0 ∨ size < 309 then false
  else if 309 < size then true
  else decide (doubleBound * Nat.pow 10 (-e).toNat ≤ m * Nat.pow 10 e.toNat)

/-- The part of a float behind its point, and its exponent. -/
def exponent : Reader Char Int := do
  discard (one fun c => c == 'e' || c == 'E')
  let sign ← sign
  let digits ← digits Text.isDigit
  let n : Int := Text.digitsValue 0 digits
  return if sign = ['-'] then -n else n

def fraction : Reader Char (List Char) := exactly ['.'] *> digits Text.isDigit

def finiteFloat : Reader Char Unit := do
  let sign ← sign
  let whole ← plainDigits
  let part ← perhaps fraction
  let power ← if part.isSome then perhaps exponent else (do return some (← exponent))
  let part := part.getD []
  let tooLarge := exceedsDouble (Text.digitsValue 0 (whole ++ part)) (power.getD 0 - part.length)
  if tooLarge && sign ≠ ['-'] then failure

def float : Reader Char String := do
  let special := discard sign *> (exactly ['i', 'n', 'f'] <|> exactly ['n', 'a', 'n'])
  return String.ofList (← taken (finiteFloat <|> special))

/-! ### Moments -/

/-- A number of exactly `n` digits, which has to be one of those from `low` to `high`. -/
def field (n low high : Nat) : Reader Char Nat := fun cs =>
  let digits := (cs.take n).takeWhile Text.isDigit
  let value := Text.digitsValue 0 digits
  if digits.length = n ∧ low ≤ value ∧ value ≤ high then some (value, cs.drop n) else none

def daysIn (year month : Nat) : Nat :=
  if month = 2 then if year % 4 = 0 ∧ (year % 100 ≠ 0 ∨ year % 400 = 0) then 29 else 28
  else if month = 4 ∨ month = 6 ∨ month = 9 ∨ month = 11 then 30
  else 31

def date : Reader Char Unit := do
  let year ← field 4 0 9999
  exactly ['-']
  let month ← field 2 1 12
  exactly ['-']
  discard (field 2 1 (daysIn year month))

/-- A time of day, whose last minute may have a leap second. -/
def time : Reader Char Unit := do
  discard (field 2 0 23)
  exactly [':']
  discard (field 2 0 59)
  exactly [':']
  discard (field 2 0 60)
  discard (perhaps (exactly ['.'] *> run1 Text.isDigit))

def offset : Reader Char Unit := do
  if (← one fun c => c == 'Z' || c == 'z' || c == '+' || c == '-') ∈ ['+', '-'] then
    discard (field 2 0 23)
    exactly [':']
    discard (field 2 0 59)

/-- A date, a time, or both, in which case an offset from universal time may follow. -/
def moment : Reader Char String := do
  let later := one (fun c => c == 'T' || c == 't' || c == ' ') *> time *> perhaps offset
  return String.ofList (← taken (date *> discard (perhaps later) <|> time))

end VaultChat.Toml
