import VaultChat.User

/-!
# The vault

What the vault is asked, what it answers, and how a call can fail.
-/

namespace VaultChat

/-- The bearer credential that the vault issues for a session. -/
structure Token where
  text : String
  deriving DecidableEq

/-- A one-time code. -/
abbrev Code := Nat

namespace Vault

/-- What the vault issues once, when an account is created. -/
structure Credentials where
  masterKey : String
  totpSecret : String
  deriving DecidableEq

/-- A password to be stored. -/
structure NewPassword where
  service : String
  login : String
  password : String
  deriving DecidableEq

/-- A stored password. -/
structure PasswordEntry where
  id : Int
  service : String
  login : String
  password : String
  updatedAt : Option String
  deriving DecidableEq

/-- How a call fails. -/
inductive Failure where
  | authFailed
  | notFound
  | conflict
  | rejected (status : Nat)
  | transport (detail : String)
  deriving DecidableEq

def Failure.message : Failure → String
  | .authFailed => "vault rejected the credentials"
  | .notFound => "vault resource not found"
  | .conflict => "vault reported a conflict"
  | .rejected status => s!"vault rejected the request with status {status}"
  | .transport detail => "vault unreachable: " ++ detail

/-- What the vault can be asked. -/
inductive Call where
  | register (username : String)
  | authenticate (username masterKey : String) (code : Code)
  | addPassword (token : Token) (entry : NewPassword)
  | listPasswords (token : Token)
  | getPassword (token : Token) (id : Int)
  | deletePassword (token : Token) (id : Int)
  | deleteAccount (username : String) (code : Code)
  deriving DecidableEq

/-- What a call returns when it succeeds. -/
abbrev Call.Result : Call → Type
  | .register _ => Credentials
  | .authenticate .. => Token
  | .listPasswords _ => List PasswordEntry
  | .getPassword .. => PasswordEntry
  | .addPassword .. | .deletePassword .. | .deleteAccount .. => Unit

abbrev Call.Answer (c : Call) : Type := Except Failure c.Result

/-- The token that a call shows, if it is one that needs a session. -/
def Call.bearer? : Call → Option Token
  | .addPassword token _ | .listPasswords token | .getPassword token _ | .deletePassword token _ => some token
  | .register _ | .authenticate .. | .deleteAccount .. => none

/-- A vault whose own state is a `τ`. -/
structure Service (τ : Type) where
  respond : (c : Call) → τ → c.Answer × τ

end Vault

end VaultChat
