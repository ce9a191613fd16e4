import VaultChat.Http.Percent
import VaultChat.Http.Punycode

/-!
# Hosts

A host is a name, an address of four numbers, or an address of eight groups in brackets.  Each has one normal form.
-/

namespace VaultChat.Http

/-- The parts of a list between the symbols that satisfy `p`. -/
def splitAt (p : Char → Bool) : List Char → List (List Char)
  | [] => [[]]
  | c :: cs =>
    if p c then [] :: splitAt p cs
    else
      match splitAt p cs with
      | part :: parts => (c :: part) :: parts
      | [] => [[c]]

/-- The number that digits in the base `b` stand for. -/
def numberIn (b : Nat) (cs : List Char) : Option Nat :=
  cs.foldlM (fun n c => (hexValue? c).bind fun d => if d < b then some (b * n + d) else none) 0

/-! ### Addresses of four numbers -/

/-- A part of an address: decimal, octal behind a zero, or hexadecimal behind a zero and an x. -/
def addressPart : List Char → Option Nat
  | [] => none
  | '0' :: 'x' :: cs | '0' :: 'X' :: cs => numberIn 16 cs
  | '0' :: cs => numberIn 8 cs
  | cs => numberIn 10 cs

/-- The parts of a name, without an empty one at its end. -/
def partsOf (name : List Char) : List (List Char) :=
  let parts := splitAt (· == '.') name
  if 1 < parts.length ∧ parts.getLast? = some [] then parts.dropLast else parts

/-- A name that ends in a number has to be an address. -/
def endsInNumber (name : List Char) : Bool :=
  match (partsOf name).getLast? with
  | some part => (!part.isEmpty && part.all Text.isDigit) || (2 ≤ part.length && (addressPart part).isSome)
  | none => false

/-- How many values the last part of an address can have after so many others. -/
def valuesAfter? : Nat → Option Nat
  | 0 => some 0x100000000
  | 1 => some 0x1000000
  | 2 => some 0x10000
  | 3 => some 0x100
  | _ => none

/-- The value of an address, whose last part stands for all bytes that are left. -/
def addressValue? (name : List Char) : Option Nat := do
  let parts ← (partsOf name).mapM addressPart
  let last ← parts.getLast?
  let before := parts.dropLast
  let values ← valuesAfter? before.length
  if before.any (255 < ·) ∨ values ≤ last then none
  else return before.foldl (fun n part => 256 * n + part) 0 * values + last

def renderAddress (n : Nat) : List Char :=
  (".".intercalate ([n / 0x1000000, n / 0x10000 % 0x100, n / 0x100 % 0x100, n % 0x100].map toString)).toList

/-! ### Addresses of eight groups -/

/-- Groups of one to four digits.  The last two may be written as an address of four numbers. -/
def groups? (cs : List Char) : Option (List Nat) :=
  if cs.isEmpty then some []
  else
    let parts := splitAt (· == ':') cs
    let group (part : List Char) := if part.isEmpty || 4 < part.length then none else numberIn 16 part
    match parts.getLast? with
    | some last =>
      if last.contains '.' then do
        let numbers ← (splitAt (· == '.') last).mapM fun part =>
          if part.head? = some '0' ∧ part ≠ ['0'] ∨ part.isEmpty then none else numberIn 10 part
        match numbers with
        | [a, b, c, d] =>
          if numbers.any (255 < ·) then none
          else return (← parts.dropLast.mapM group) ++ [256 * a + b, 256 * c + d]
        | _ => none
      else parts.mapM group
    | none => none

/-- The two sides of the first pair of colons. -/
def cutAtColons : List Char → List Char × Option (List Char)
  | ':' :: ':' :: cs => ([], some cs)
  | c :: cs =>
    let (before, after) := cutAtColons cs
    (c :: before, after)
  | [] => ([], none)

/-- The eight groups of an address, in which a pair of colons stands for as many zeros as are missing. -/
def eightGroups? (cs : List Char) : Option (List Nat) :=
  match cutAtColons cs with
  | (all, none) => (groups? all).bind fun l => if l.length = 8 then some l else none
  | (before, some after) => do
    let l ← groups? before
    let r ← groups? after
    if before.contains '.' ∨ 8 ≤ l.length + r.length then none
    else return l ++ List.replicate (8 - l.length - r.length) 0 ++ r

/-- Where the longest run of zeros starts, and its length; the first one among equals. -/
def longestZeros (groups : List Nat) : Nat × Nat :=
  (List.range 8).foldl (fun best i =>
    let n := ((groups.drop i).takeWhile (· == 0)).length
    if best.2 < n then (i, n) else best) (0, 0)

def renderGroups (groups : List Nat) : List Char :=
  let render (l : List Nat) := ":".intercalate (l.map fun n => String.ofList (Nat.toDigits 16 n))
  let (i, n) := longestZeros groups
  let text := if n < 2 then render groups else s!"{render (groups.take i)}::{render (groups.drop (i + n))}"
  ['['] ++ text.toList ++ [']']

/-! ### Hosts -/

/-- What may not occur in a name. -/
def isForbidden (c : Char) : Bool := c.toNat ≤ 0x20 || c.toNat = 0x7F || "#/:<>?@[\\]^|%".contains c

/-- The normal form of a host. -/
def normalHost? (host : List Char) : Option (List Char) :=
  match host with
  | '[' :: rest =>
    if rest.getLast? = some ']' then (eightGroups? rest.dropLast).map renderGroups else none
  | _ => do
    let decoded ← String.fromUTF8? ⟨(percentDecode host).toArray⟩
    let name := ['.'].intercalate ((splitAt (· == '.') decoded.toList).map Punycode.label)
    if name.isEmpty ∨ name.any isForbidden then none
    else if endsInNumber name then (addressValue? name).map renderAddress
    else return name

end VaultChat.Http
