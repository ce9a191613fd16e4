import VaultChat.Text.Numeral
import VaultChat.Text.Reader

/-!
# Values read from bytes

The grammar is strict: no comments, no trailing commas, nothing but blanks around the value.  Strings need not be
Unicode text to be read, and numbers may have any size, as long as nobody asks for them.
-/

namespace VaultChat.Json

open Text (Reader)
open Text.Reader

inductive Value where
  | null
  | boolean (b : Bool)
  /-- A number, and its value if it is written as an integer. -/
  | number (value : Option Int)
  /-- A string, and what it says if that is Unicode text. -/
  | text (content : Option String)
  | array (items : List Value)
  | object (members : List (Option String × Value))

def ascii (c : Char) : UInt8 := c.toNat.toUInt8

def isOneOf (cs : List Char) (b : UInt8) : Bool := cs.any (ascii · == b)

def isDigit (b : UInt8) : Bool := ascii '0' ≤ b && b ≤ ascii '9'

def blanks : Reader UInt8 Unit := discard (run (isOneOf [' ', '\t', '\n', '\r']))

def sign (c : Char) : Reader UInt8 Unit := exactly [ascii c]

def word (s : String) : Reader UInt8 Unit := exactly (s.toList.map ascii)

/-! ### Strings -/

/-- A part of a string: a byte that stands for itself, or a UTF-16 unit given by its number. -/
inductive Piece where
  | byte (b : UInt8)
  | unit (n : Nat)

def hexValue? (b : UInt8) : Option Nat :=
  if isDigit b then some (b.toNat - 48)
  else if ascii 'a' ≤ b ∧ b ≤ ascii 'f' then some (b.toNat - 87)
  else if ascii 'A' ≤ b ∧ b ≤ ascii 'F' then some (b.toNat - 55)
  else none

def hexDigit : Reader UInt8 Nat := do hexValue? (← one fun b => (hexValue? b).isSome)

/-- The characters that a backslash and one more character stand for. -/
def shortEscapes : List (Char × Char) :=
  [('"', '"'), ('\\', '\\'), ('/', '/'), ('b', '\x08'), ('f', '\x0c'), ('n', '\n'), ('r', '\r'), ('t', '\t')]

def piece : Reader UInt8 Piece :=
  .byte <$> one (fun b => 0x20 ≤ b && !isOneOf ['"', '\\'] b) <|> do
    sign '\\'
    let b ← one fun _ => true
    match shortEscapes.find? fun e => ascii e.1 == b with
    | some e => return .byte (ascii e.2)
    | none =>
      if b ≠ ascii 'u' then failure
      return .unit ((← hexDigit) * 4096 + (← hexDigit) * 256 + (← hexDigit) * 16 + (← hexDigit))

/-- The bytes of a string, unless half of a surrogate pair stands alone. -/
def bytesOf? : List Piece → Option (List UInt8)
  | [] => some []
  | .byte b :: rest => (bytesOf? rest).map (b :: ·)
  | .unit high :: .unit low :: rest =>
    if 0xD800 ≤ high ∧ high < 0xDC00 ∧ 0xDC00 ≤ low ∧ low < 0xE000 then
      (bytesOf? rest).map (String.utf8EncodeChar (.ofNat (0x10000 + (high - 0xD800) * 0x400 + (low - 0xDC00))) ++ ·)
    else if high.isValidChar then (bytesOf? (.unit low :: rest)).map (String.utf8EncodeChar (.ofNat high) ++ ·)
    else none
  | .unit n :: rest =>
    if n.isValidChar then (bytesOf? rest).map (String.utf8EncodeChar (.ofNat n) ++ ·) else none

def string : Reader UInt8 (Option String) := do
  let pieces ← sign '"' *> many piece <* sign '"'
  return (bytesOf? pieces).bind fun bytes => String.fromUTF8? ⟨bytes.toArray⟩

/-! ### Numbers -/

def digits : Reader UInt8 (List UInt8) := run1 isDigit

/-- A number.  Minus zero is no integer. -/
def number : Reader UInt8 (Option Int) := do
  let minus ← perhaps (sign '-')
  let whole ← sign '0' *> pure [ascii '0'] <|> digits
  let fraction ← perhaps (sign '.' *> digits)
  let exponent ← perhaps (one (isOneOf ['e', 'E']) *> perhaps (one (isOneOf ['+', '-'])) *> digits)
  let n := Text.digitsValue 0 (whole.map fun b => Char.ofNat b.toNat)
  if fraction.isSome || exponent.isSome || (minus.isSome && n == 0) then return none
  return some (if minus.isSome then -(n : Int) else n)

/-! ### Values -/

/-- Items with commas between them, in brackets. -/
def listed {α : Type} (opening closing : Char) (item : Reader UInt8 α) : Reader UInt8 (List α) := do
  sign opening
  blanks
  let items ← perhaps (separated (sign ',' *> blanks) (item <* blanks))
  sign closing
  return items.getD []

/-- A value with its parts at most so deep. -/
def value : Nat → Reader UInt8 Value
  | 0 => failure
  | depth + 1 =>
    word "null" *> pure .null <|> word "true" *> pure (.boolean true) <|> word "false" *> pure (.boolean false) <|>
      .number <$> number <|> .text <$> string <|> .array <$> listed '[' ']' (value depth) <|>
      .object <$> listed '\x7b' '\x7d' do
        let key ← string
        blanks
        sign ':'
        blanks
        return (key, ← value depth)

def Value.read? (bytes : ByteArray) : Option Value :=
  all? (blanks *> value (bytes.size + 1) <* blanks) bytes.toList

/-! ### Looking into a value -/

namespace Value

def text? : Value → Option String
  | .text s => s
  | _ => none

/-- An integer of 64 bits. -/
def integer? : Value → Option Int
  | .number (some n) => if -(Text.maxSigned64 + 1 : Int) ≤ n ∧ n ≤ Text.maxSigned64 then some n else none
  | _ => none

/-- The fields of a record by their names: the members of an object, none of them given twice, or the items of an
array in their order. -/
def fields? (names : List String) : Value → Option (List (Option Value))
  | .object members =>
    let given (name : String) := members.filter fun m => m.1 == some name
    if members.all (·.1.isSome) && names.all fun name => (given name).length ≤ 1 then
      some (names.map fun name => (given name).head?.map Prod.snd)
    else none
  | .array items =>
    if items.length ≤ names.length then
      some (items.map some ++ List.replicate (names.length - items.length) none)
    else none
  | _ => none

end Value

end VaultChat.Json
