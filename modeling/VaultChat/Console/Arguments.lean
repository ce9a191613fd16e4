import VaultChat.Config.Basic
import VaultChat.Text.Numeral

/-!
# Arguments

The options of the command line, read from left to right.  The option for a user takes the argument after it, whatever
that looks like.  Help and version are given at once, whatever follows.
-/

namespace VaultChat.Console

/-- What the command line asks for. -/
inductive Invocation where
  | run (mode : RunMode) (user : Option UserId)
  | help
  | version
  deriving DecidableEq

inductive ArgumentFault where
  | missingUser
  | invalidUser (value : String) (fault : Text.NumeralFault)
  | unknownArgument (arg : String)
  | consoleWithoutUser
  deriving DecidableEq, Repr

/-- What is wrong, and then why. -/
def ArgumentFault.chain : ArgumentFault → List String
  | .missingUser => ["--user needs a numeric id"]
  | .invalidUser value fault => [s!"invalid user id '{value}'", fault.message]
  | .unknownArgument arg => [s!"unknown argument '{arg}' (see --help)"]
  | .consoleWithoutUser => ["--cli requires --user <id>"]

/-- Reads arguments on, with the mode and the user of those before. -/
def readArguments : RunMode → Option UserId → List String → Except ArgumentFault Invocation
  | mode, user, [] => if mode = .console ∧ user = none then .error .consoleWithoutUser else .ok (.run mode user)
  | mode, user, arg :: rest =>
    if arg = "--cli" ∨ arg = "-c" then readArguments .console user rest
    else if arg = "--user" ∨ arg = "-u" then
      match rest with
      | [] => .error .missingUser
      | value :: rest =>
        match Text.readNatural Text.maxUnsigned64 value.toList with
        | .ok n => readArguments mode (some ⟨n.toUInt64⟩) rest
        | .error fault => .error (.invalidUser value fault)
    else if arg = "--help" ∨ arg = "-h" then .ok .help
    else if arg = "--version" ∨ arg = "-v" then .ok .version
    else .error (.unknownArgument arg)

def parseArguments (args : List String) : Except ArgumentFault Invocation := readArguments .server none args

/-- What `--help` shows. -/
def helpLines : List String :=
  ["pm-gateway - chat front-end for the password vault",
   "",
   "Usage:",
   "  pm-gateway                     Start the Telegram bot",
   "  pm-gateway --cli --user <id>   Start the interactive console",
   "  pm-gateway --help              Show this help message",
   "  pm-gateway --version           Show version",
   "",
   "Environment Variables (override pm-gateway.toml):",
   "  TELEGRAM_BOT_TOKEN   Telegram bot token (required for the bot)",
   "  VAULT_BASE_URL       Vault API base URL (required)",
   "  VAULT_TIMEOUT_SECS   Vault request timeout (default: 30)",
   "  SESSION_BACKEND      memory or sqlite (default: memory)",
   "  SESSION_DB_PATH      SQLite path (default: data/pm-gateway.db)",
   "  SESSION_TTL_SECS     Session lifetime (default: 604800)",
   "  SESSION_REFRESH      never, mutating or always (default: mutating)",
   "  GEN_DEFAULT_LENGTH   /gen default length (default: 16)"]

def versionLine : String := "pm-gateway 0.1.0"

end VaultChat.Console
