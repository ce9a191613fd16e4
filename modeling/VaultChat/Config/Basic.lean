import VaultChat.Engine.Respond

/-!
# Configurations

What can be set about a gateway, with the value of every setting that nothing sets.
-/

namespace VaultChat

/-- Where sessions are kept. -/
inductive Backend where
  | memory
  | sqlite
  deriving DecidableEq, Repr

namespace Backend

def name : Backend → String
  | .memory => "memory"
  | .sqlite => "sqlite"

def ofName? : String → Option Backend
  | "memory" => some .memory
  | "sqlite" => some .sqlite
  | _ => none

end Backend

/-- How the gateway is run: as a chat bot, or for one user at a terminal. -/
inductive RunMode where
  | server
  | console
  deriving DecidableEq, Repr

structure Config where
  /-- The token of the chat bot. -/
  botToken : Option String := none
  vaultUrl : String := ""
  /-- How long a call of the vault may take. -/
  vaultSeconds : Nat := 30
  backend : Backend := .memory
  databasePath : String := "data/pm-gateway.db"
  /-- How long a session lives. -/
  sessionSeconds : Nat := Session.defaultTtlSeconds
  refresh : Session.RefreshPolicy := .mutating
  /-- The length of a password for which none is asked for. -/
  passwordLength : Nat := Password.defaultLength
  deriving DecidableEq

namespace Config

def sessionTtl (c : Config) : Span := .ofSeconds c.sessionSeconds

def engineSettings (c : Config) : Engine.Settings := ⟨c.sessionTtl, c.refresh, c.passwordLength⟩

/-- Refuses a configuration with which the gateway cannot start. -/
def validate (c : Config) (mode : RunMode) : Except Error Unit :=
  if (Text.trim c.vaultUrl.toList).isEmpty then
    .error (.config "vault base URL is not set (vault.base_url or VAULT_BASE_URL)")
  else if mode = .server ∧ (c.botToken.getD "").isEmpty then
    .error (.config "Telegram bot token is not set (telegram.token or TELEGRAM_BOT_TOKEN)")
  else if c.sessionSeconds = 0 then .error (.config "session TTL must be greater than zero")
  else if c.passwordLength < Password.minLength ∨ Password.maxLength < c.passwordLength then
    .error (.config
      s!"default password length must be between {Password.minLength} and {Password.maxLength}")
  else .ok ()

end Config

end VaultChat
