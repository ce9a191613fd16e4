import VaultChat.Text.Reader

/-!
# Strings, blanks and keys

The four forms of a string, the blanks and comments between the parts of a document, and keys.  A line break inside a
string of several lines always stands for a single line feed.
-/

namespace VaultChat.Toml

open Text (Reader)
open Text.Reader

/-! ### Blanks -/

/-- A tab or a space. -/
def isGap (c : Char) : Bool := c == ' ' || c == '\t'

/-- No control character, the tab apart. -/
def isPrintable (c : Char) : Bool := c == '\t' || (' ' ≤ c && c ≠ '\x7f')

def gap : Reader Char Unit := discard (run isGap)

def lineBreak : Reader Char Unit := exactly ['\n'] <|> exactly ['\r', '\n']

def comment : Reader Char Unit := exactly ['#'] *> discard (run isPrintable)

/-- The rest of a line: a comment at most. -/
def lineEnd : Reader Char Unit := gap *> discard (perhaps comment) *> (lineBreak <|> finished)

/-- Blanks, comments and line breaks, as they may stand inside an array. -/
def spread : Reader Char Unit := gap *> discard (many ((lineBreak <|> comment *> lineBreak) *> gap))

/-! ### Strings -/

def isHexDigit (c : Char) : Bool := c.isDigit || ('a' ≤ c && c ≤ 'f') || ('A' ≤ c && c ≤ 'F')

def hexValue (c : Char) : Nat :=
  if c.isDigit then c.toNat - '0'.toNat
  else if 'a' ≤ c then c.toNat - 'a'.toNat + 10
  else c.toNat - 'A'.toNat + 10

def hexNumber (cs : List Char) : Nat := cs.foldl (fun n c => 16 * n + hexValue c) 0

/-- The character with the number that the next `n` hexadecimal digits give. -/
def scalar (n : Nat) : Reader Char Char := fun cs =>
  let digits := (cs.take n).takeWhile isHexDigit
  if digits.length = n ∧ (hexNumber digits).isValidChar then some (Char.ofNat (hexNumber digits), cs.drop n)
  else none

/-- A backslash and what it stands for. -/
def escape : Reader Char Char := do
  exactly ['\\']
  match ← one fun _ => true with
  | 'b' => return '\x08'
  | 't' => return '\t'
  | 'n' => return '\n'
  | 'f' => return '\x0c'
  | 'r' => return '\r'
  | '"' => return '"'
  | '\\' => return '\\'
  | 'u' => scalar 4
  | 'U' => scalar 8
  | _ => failure

/-- A character that stands for itself between double quotes. -/
def isPlain (c : Char) : Bool := isPrintable c && c != '"' && c != '\\'

/-- A character that stands for itself between single quotes. -/
def isVerbatim (c : Char) : Bool := isPrintable c && c != '\''

def basicString : Reader Char (List Char) := exactly ['"'] *> many (one isPlain <|> escape) <* exactly ['"']

def literalString : Reader Char (List Char) := exactly ['\''] *> run isVerbatim <* exactly ['\'']

/-- A backslash at the end of a line, which goes with all blanks and line breaks after it. -/
def continuation : Reader Char Unit := do
  exactly ['\\']
  gap
  lineBreak
  discard (many (discard (one isGap) <|> lineBreak))

/-- One or two quotes, as long as `after` comes next. -/
def quotes (q : Char) (after : Reader Char Unit) : Reader Char (List Char) :=
  exactly [q, q] *> ahead after *> pure [q, q] <|> exactly [q] *> ahead after *> pure [q]

/-- A string of several lines, which are made up of `piece`s and of quotes that close nothing. -/
def manyLines (q : Char) (piece : Reader Char (List Char)) : Reader Char (List Char) := do
  exactly [q, q, q]
  discard (perhaps lineBreak)
  let content ← many (piece <|> lineBreak *> pure ['\n'] <|> quotes q (discard (one (· != q))))
  let last ← perhaps (quotes q (exactly [q, q, q]))
  exactly [q, q, q]
  return content.flatten ++ last.getD []

def basicLines : Reader Char (List Char) :=
  manyLines '"' (run1 isPlain <|> continuation *> pure [] <|> return [← escape])

def literalLines : Reader Char (List Char) := manyLines '\'' (run1 isVerbatim)

/-- A string in any of its forms.  Three quotes open several lines. -/
def string : Reader Char String := do
  let content ← fun cs =>
    match cs with
    | '"' :: '"' :: '"' :: _ => basicLines cs
    | '"' :: _ => basicString cs
    | '\'' :: '\'' :: '\'' :: _ => literalLines cs
    | _ => literalString cs
  return String.ofList content

/-! ### Keys -/

def isBare (c : Char) : Bool := c.isAlphanum || c == '_' || c == '-'

def simpleKey : Reader Char String := do
  return String.ofList (← run1 isBare <|> basicString <|> literalString)

/-- A key in its table, and the tables on the way to that one. -/
structure KeyPath where
  parents : List String
  last : String
  deriving DecidableEq

/-- A key has fewer parts than this. -/
def maxKeyParts : Nat := 80

/-- The parts of a key, with points between them. -/
def keyPath : Reader Char KeyPath := do
  let parts ← separated (exactly ['.']) (gap *> simpleKey <* gap)
  match parts.getLast? with
  | some last => if parts.length < maxKeyParts then return ⟨parts.dropLast, last⟩ else failure
  | none => failure

end VaultChat.Toml
