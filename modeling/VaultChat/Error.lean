import VaultChat.Vault.Basic

/-!
# Errors

Every failure of the gateway is a value of `Error`.  Its kind decides what a conversation does about it.  The errors
of the network, of response bodies, of databases and of files come with texts of their own, which no answer shows.
-/

namespace VaultChat

inductive Error where
  | invalidInput (detail : String)
  | unauthenticated
  | vault (failure : Vault.Failure)
  | http
  | json
  | database
  | cache (detail : String)
  | config (detail : String)
  | io
  deriving DecidableEq

/-- What a conversation does about an error. -/
inductive ErrorKind where
  | invalidInput
  | unauthenticated
  | vaultRejected
  | transport
  | configurationFatal
  deriving DecidableEq, Repr

namespace Error

def kind : Error → ErrorKind
  | .invalidInput _ => .invalidInput
  | .unauthenticated => .unauthenticated
  | .vault (.transport _) => .transport
  | .vault _ => .vaultRejected
  | .http | .json | .database | .cache _ | .io => .transport
  | .config _ => .configurationFatal

/-- The text of an error, for those whose text is settled here. -/
def message? : Error → Option String
  | .invalidInput detail => some ("Invalid input: " ++ detail)
  | .unauthenticated => some "Not authenticated"
  | .vault failure => some ("Vault error: " ++ failure.message)
  | .cache detail => some ("Cache error: " ++ detail)
  | .config detail => some ("Configuration error: " ++ detail)
  | .http | .json | .database | .io => none

end Error

end VaultChat
