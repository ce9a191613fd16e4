import VaultChat.Text.Lowercase

/-!
# International names

A label with characters beyond ASCII is written with ASCII letters and digits alone: first its ASCII characters, then
the others, in the order of their code points, each as a number that tells how far to go on from the one before.
-/

namespace VaultChat.Http.Punycode

def digit (d : Nat) : Char := if d < 26 then .ofNat ('a'.toNat + d) else .ofNat ('0'.toNat + (d - 26))

/-- Divides by 35 until at most 455 is left, and counts 36 for each time. -/
def shrink : Nat → Nat → Nat → Nat × Nat
  | 0, delta, k => (delta, k)
  | fuel + 1, delta, k => if 455 < delta then shrink fuel (delta / 35) (k + 36) else (delta, k)

/-- The bias for the number after `delta`, which was the first one or not, of `count` characters. -/
def adapt (delta count : Nat) (first : Bool) : Nat :=
  let delta := if first then delta / 700 else delta / 2
  let (delta, k) := shrink 32 (delta + delta / count) 0
  k + 36 * delta / (delta + 38)

def threshold (k bias : Nat) : Nat := min 26 (max 1 (k - bias))

/-- The digits of a number, the least one first. -/
def number (bias : Nat) : Nat → Nat → Nat → List Char
  | 0, _, _ => []
  | fuel + 1, k, q =>
    let t := threshold k bias
    if q < t then [digit q] else digit (t + (q - t) % (36 - t)) :: number bias fuel (k + 36) ((q - t) / (36 - t))

structure State where
  delta : Nat
  bias : Nat
  handled : Nat
  output : List Char

/-- Goes on by one character of the label, when those with code point `n` are being written. -/
def step (basic n : Nat) (s : State) (c : Char) : State :=
  if c.toNat < n then { s with delta := s.delta + 1 }
  else if c.toNat = n then
    ⟨0, adapt s.delta (s.handled + 1) (s.handled == basic), s.handled + 1, s.output ++ number s.bias 32 36 s.delta⟩
  else s

/-- Writes the characters of the label that have one of the given code points. -/
def write (label : List Char) (basic : Nat) : Nat → List Nat → State → List Char
  | _, [], s => s.output
  | from', n :: rest, s =>
    let s := label.foldl (step basic n) { s with delta := s.delta + (n - from') * (s.handled + 1) }
    write label basic (n + 1) rest { s with delta := s.delta + 1 }

def encode (label : List Char) : List Char :=
  let basic := label.filter fun c => c.toNat < 0x80
  let others := (label.filter fun c => 0x80 ≤ c.toNat).map Char.toNat |>.eraseDups.mergeSort
  write label basic.length 0x80 others ⟨0, 72, basic.length, if basic.isEmpty then [] else basic ++ ['-']⟩

/-- A label of a name in lower case and ASCII. -/
def label (cs : List Char) : List Char :=
  let cs := Text.lowercase cs
  if cs.all fun c => c.toNat < 0x80 then cs else ['x', 'n', '-', '-'] ++ encode cs

end VaultChat.Http.Punycode
