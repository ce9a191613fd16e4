import VaultChat.Text.Blank
import VaultChat.Text.Lowercase
import VaultChat.Text.Numeral
import VaultChat.Vault.Basic

/-!
# What a dialogue waits for

The forms of text that the steps of a dialogue accept: a master key and a code, an entry of three parts, a code, a
confirmation.  The arguments of commands are numbers.
-/

namespace VaultChat.Chat

/-- A one-time code: ASCII digits between blanks, of a value that fits 32 bits. -/
def parseCode (text : List Char) : Option Code :=
  let code := Text.trim text
  if code.isEmpty || !code.all Text.isDigit then none else (Text.readNatural Text.maxUnsigned32 code).toOption

/-- Exactly two words, the second one a code. -/
def parseCredentials (text : String) : Option (String × Code) :=
  match Text.words text.toList with
  | [key, code] => (parseCode code).map fun code => (String.ofList key, code)
  | _ => none

/-- Service, login and password, each ended by a space but the last, which keeps any further spaces. -/
def parseEntry (text : String) : Option Vault.NewPassword :=
  match Text.cut (· == ' ') text.toList with
  | (service, some rest) =>
    match Text.cut (· == ' ') rest with
    | (login, some password) =>
      if service.isEmpty || login.isEmpty || password.isEmpty then none
      else some ⟨String.ofList service, String.ofList login, String.ofList password⟩
    | _ => none
  | _ => none

/-- The id of an entry: a signed numeral of 64 bits between blanks. -/
def parseId (arg : String) : Option Int := (Text.readInteger Text.maxSigned64 (Text.trim arg.toList)).toOption

/-- The length of a password: an unsigned numeral of 64 bits. -/
def parseLength (arg : String) : Option Nat := (Text.readNatural Text.maxUnsigned64 arg.toList).toOption

def isConfirmation (text : String) : Bool := Text.eqIgnoringCase (Text.trim text.toList) "yes".toList

end VaultChat.Chat
