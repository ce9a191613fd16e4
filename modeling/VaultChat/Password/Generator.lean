import VaultChat.Error
import VaultChat.Password.Draw

/-!
# The password generator

Passwords have at least `minLength` and at most `maxLength` characters.  Any other length is refused before a random
word is looked at.
-/

namespace VaultChat.Password

/-- How many characters of a password of this length are free, for the lengths that are served. -/
def freeCharacters (length : Nat) : Except Error Nat :=
  if minLength ≤ length ∧ length ≤ maxLength then .ok (length - 3)
  else .error (.invalidInput s!"password length must be between {minLength} and {maxLength}, got {length}")

/-- A generated password and the number of words spent on characters and on the shuffle. -/
structure Generated where
  password : String
  forCharacters : Nat
  forPartners : Nat

/-- Generates a password from a stream of words.  There is none if a single draw rejects `patience` words. -/
def generate (length : Nat) (words : Words) (patience : Nat) : Except Error (Option Generated) :=
  (freeCharacters length).map fun extra =>
    (draw extra words patience).map fun d => ⟨d.choices.password, d.forCharacters, d.forPartners⟩

/-- What can be told about a password without showing it. -/
structure Facts where
  length : Nat
  letter : Bool
  digit : Bool
  symbol : Bool
  onlyKnown : Bool

def Facts.of (password : String) : Facts :=
  let cs := password.toList
  { length := cs.length
    letter := cs.any letters.contains
    digit := cs.any digits.contains
    symbol := cs.any symbols.contains
    onlyKnown := cs.all alphabet.contains }

end VaultChat.Password
