import VaultChat.Text.CodeRange
import VaultChat.Text.PrintData

/-!
# Quoted text

A text as it is shown to developers: in double quotes, with escapes for quotes, backslashes and all that would not
show.
-/

namespace VaultChat.Text

/-- The escape of a character by its code point. -/
def escapeCode (c : Char) : List Char :=
  ['\\', 'u', '\x7b'] ++ Nat.toDigits 16 c.toNat ++ ['\x7d']

/-- One character of a quoted text. -/
def escapeChar (c : Char) : List Char :=
  if c.toNat = 0 then ['\\', '0']
  else if c = '\t' then ['\\', 't']
  else if c = '\r' then ['\\', 'r']
  else if c = '\n' then ['\\', 'n']
  else if c = '\\' then ['\\', '\\']
  else if c = '"' then ['\\', '"']
  else if inRanges graphemeExtendRanges c || inRanges unprintableRanges c then escapeCode c
  else [c]

def quote (s : String) : String := String.ofList ('"' :: s.toList.flatMap escapeChar ++ ['"'])

end VaultChat.Text
