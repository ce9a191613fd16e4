import VaultChat.Password.Choices

/-!
# Drawing choices from random words

Choices are drawn from a stream of 64-bit words.  A number below `n` is the upper half of the product of a word with
`n`; words whose product has a lower half beyond the zone are rejected, so that every number is equally likely.
Characters are picked by whole words, swap partners by the lower half of a word.
-/

namespace VaultChat.Password

/-- A stream of random words. -/
abbrev Words := Nat → UInt64

/-- The largest lower half of a product with `n` that is accepted. -/
def zone (bits n : Nat) : Nat := (n <<< (bits - (Nat.log2 n + 1))) - 1

/-- Draws a number below `n` from the lowest `bits` bits of words, starting at a position, and tries at most
`patience` words.  Gives the number and the position after the accepted word. -/
def drawBelow (bits n : Nat) (words : Words) : Nat → Nat → Option (Fin n × Nat)
  | 0, _ => none
  | patience + 1, pos =>
    let size := 1 <<< bits
    let product := (words pos).toNat % size * n
    if product % size ≤ zone bits n then
      if h : product / size < n then some (⟨product / size, h⟩, pos + 1) else none
    else drawBelow bits n words patience (pos + 1)

/-- Draws `m` numbers below `n`, the first one first. -/
def drawMany (n : Nat) (words : Words) (patience : Nat) : (m : Nat) → Nat → Option ((Fin m → Fin n) × Nat)
  | 0, pos => some (fun i => i.elim0, pos)
  | m + 1, pos => do
    let (first, pos) ← drawBelow 64 n words patience pos
    let (others, pos) ← drawMany n words patience m pos
    return (fun i => match i with
      | ⟨0, _⟩ => first
      | ⟨i + 1, h⟩ => others ⟨i, by omega⟩, pos)

/-- Draws the swap partners of the first `m` steps, the last one first. -/
def drawPartners (words : Words) (patience : Nat) :
    (m : Nat) → Nat → Option (((k : Fin m) → Fin (k.val + 2)) × Nat)
  | 0, pos => some (fun k => k.elim0, pos)
  | m + 1, pos => do
    let (last, pos) ← drawBelow 32 (m + 2) words patience pos
    let (others, pos) ← drawPartners words patience m pos
    return (fun k => if h : k.val < m then others ⟨k.val, h⟩ else
      ⟨last.val, by have := k.isLt; have := last.isLt; omega⟩, pos)

/-- Drawn choices, with the number of words spent on characters and on swap partners. -/
structure Draw (extra : Nat) where
  choices : Choices extra
  forCharacters : Nat
  forPartners : Nat

/-- Draws all choices, unless one of the draws runs out of patience. -/
def draw (extra : Nat) (words : Words) (patience : Nat) : Option (Draw extra) := do
  let (letter, pos) ← drawBelow 64 letters.length words patience 0
  let (digit, pos) ← drawBelow 64 digits.length words patience pos
  let (symbol, pos) ← drawBelow 64 symbols.length words patience pos
  let (others, picked) ← drawMany alphabet.length words patience extra pos
  let (partner, shuffled) ← drawPartners words patience (extra + 2) picked
  return ⟨{ letter, digit, symbol, others, partner }, picked, shuffled - picked⟩

/-- The stream of words that starts from a seed.  Each word mixes the seed advanced by a multiple of one odd step. -/
def mixedWords (seed : UInt64) : Words := fun i =>
  let z := seed + (i + 1).toUInt64 * 0x9E3779B97F4A7C15
  let z := (z ^^^ (z >>> 30)) * 0xBF58476D1CE4E5B9
  let z := (z ^^^ (z >>> 27)) * 0x94D049BB133111EB
  z ^^^ (z >>> 31)

/-- Given words first, then those of another stream. -/
def prefixed (given : Array UInt64) (more : Words) : Words := fun i =>
  if h : i < given.size then given[i] else more (i - given.size)

end VaultChat.Password
