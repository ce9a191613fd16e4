import VaultChat.Config.Basic

/-!
# The environment

The variables of the environment have a say in a configuration in two ways.  A reference to a variable inside a text
stands for its value, and some variables override settings.  A variable that is empty overrides nothing.
-/

namespace VaultChat

/-- The values of the variables that are set. -/
abbrev Environment := String → Option String

namespace Environment

/-- The text that a reference stands for. -/
def value (env : Environment) (name : List Char) : List Char := ((env (String.ofList name)).getD "").toList

/-- Expands a text, of which the name of a reference may have been read already, in reverse. -/
def expandFrom (env : Environment) : Option (List Char) → List Char → List Char
  | none, [] => []
  | none, '$' :: '\x7b' :: cs => expandFrom env (some []) cs
  | none, c :: cs => c :: expandFrom env none cs
  | some name, [] => env.value name.reverse
  | some name, '\x7d' :: cs => env.value name.reverse ++ expandFrom env none cs
  | some name, c :: cs => expandFrom env (some (c :: name)) cs

/-- Puts values in the place of references, in one pass.  A reference is a dollar sign and a name in braces; without
a closing brace the name takes up the rest of the text. -/
def expand (env : Environment) (text : List Char) : List Char := expandFrom env none text

end Environment

namespace Config

/-- A setting of a choice by its name, in letters of any case. -/
def readName {α : Type} (ofName? : String → Option α) (choice names raw : String) : Except Error α :=
  let name := String.ofList (Text.lowercase (Text.trim raw.toList))
  match ofName? name with
  | some a => .ok a
  | none => .error (.config s!"unknown {choice} '{name}' (expected {names})")

def readBackend : String → Except Error Backend := readName Backend.ofName? "session backend" "memory or sqlite"

def readPolicy : String → Except Error Session.RefreshPolicy :=
  readName Session.RefreshPolicy.ofName? "session refresh policy" "never, mutating or always"

/-- The value of the variable `key` as a number of 64 bits. -/
def readCount (key raw : String) : Except Error Nat :=
  match Text.readNatural Text.maxUnsigned64 (Text.trim raw.toList) with
  | .ok n => .ok n
  | .error _ => .error (.config s!"{key} must be a non-negative integer, got '{raw}'")

/-- A variable that overrides a setting. -/
structure Override where
  key : String
  apply : String → Config → Except Error Config

/-- The variables that override settings, in the order in which they are looked at. -/
def overrides : List Override :=
  [⟨"TELEGRAM_BOT_TOKEN", fun raw c => .ok { c with botToken := some raw }⟩,
   ⟨"VAULT_BASE_URL", fun raw c => .ok { c with vaultUrl := raw }⟩,
   ⟨"VAULT_TIMEOUT_SECS", fun raw c => do return { c with vaultSeconds := ← readCount "VAULT_TIMEOUT_SECS" raw }⟩,
   ⟨"SESSION_BACKEND", fun raw c => do return { c with backend := ← readBackend raw }⟩,
   ⟨"SESSION_DB_PATH", fun raw c => .ok { c with databasePath := raw }⟩,
   ⟨"SESSION_TTL_SECS", fun raw c => do return { c with sessionSeconds := ← readCount "SESSION_TTL_SECS" raw }⟩,
   ⟨"SESSION_REFRESH", fun raw c => do return { c with refresh := ← readPolicy raw }⟩,
   ⟨"GEN_DEFAULT_LENGTH", fun raw c => do
      return { c with passwordLength := ← readCount "GEN_DEFAULT_LENGTH" raw }⟩]

/-- Lets a variable override its setting, if it is set and not empty. -/
def applyOverride (env : Environment) (c : Config) (o : Override) : Except Error Config :=
  match env o.key with
  | some raw => if raw.isEmpty then .ok c else o.apply raw c
  | none => .ok c

def override (env : Environment) (c : Config) : Except Error Config := overrides.foldlM (applyOverride env) c

end Config

end VaultChat
