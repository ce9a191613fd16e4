import VaultChat.Config.VariableFile
import VaultChat.Console.Arguments
import VaultChat.Console.Line
import VaultChat.Startup
import VaultChat.Telegram.Delivery

/-!
# The program

The command line is followed up to the point where a terminal or a chat service is needed.  A configuration that is
refused ends the program before any database is opened.
-/

namespace VaultChat.Console

/-- What a program that has ended leaves behind: lines of output, and of errors. -/
structure Outcome where
  status : Nat
  output : List String
  errors : List String

/-- How far the program gets on its own. -/
inductive Progress where
  | ended (o : Outcome)
  /-- A console for a user, after some lines of output. -/
  | console (output : List String) (gateway : Gateway) (user : UserId)
  /-- A bot with a token, after some lines of output. -/
  | bot (output : List String) (gateway : Gateway) (token : String)

/-- A line of the log. -/
def logLine (target message : String) : String := s!"INFO {target}: {message}"

def note (message : String) : String := logLine "pm_gateway" message

/-- The lines that report an error with its causes. -/
def errorLines : List String → List String
  | [] => []
  | [e] => [s!"Error: {e}"]
  | e :: causes => [s!"Error: {e}", "", "Caused by:"] ++ causes.map fun cause => s!"    {cause}"

def failed (output : List String) (chain : List String) : Progress := .ended ⟨1, output, errorLines chain⟩

def configFailure (e : Error) : List String := ["Config error: " ++ e.message?.getD ""]

/-- The line that tells where sessions are kept. -/
def backendNote (c : Config) : String :=
  match c.backend with
  | .memory => note "Session backend: memory"
  | .sqlite => note s!"Session backend: sqlite ({c.databasePath})"

/-- Starts the gateway of a configuration that was accepted. -/
def launch (c : Config) (mode : RunMode) (user : Option UserId) (disk : Session.Disk) : Progress :=
  let output := [note "Starting pm-gateway...", note s!"Vault: {c.vaultUrl}", backendNote c]
  match Gateway.ofConfig c disk with
  | .error e => failed output [e.message]
  | .ok gateway =>
    match mode, user with
    | .console, some user =>
      .console (output ++ [note s!"Running in CLI mode as user {user.username}",
        logLine "pm_gateway::cli" s!"Starting CLI mode for user {user.username}"] ++ welcomeLines) gateway user
    | .console, none => failed output ["--cli requires --user <id>"]
    | .server, _ =>
      let token := c.botToken.getD ""
      match Telegram.checkToken token with
      | .error e => failed output [e.message]
      | .ok () =>
        .bot (output ++ [note "pm-gateway initialized successfully", note "Press Ctrl+C to exit"]) gateway token

/-- Follows the command line, with the environment, the file of the configuration and the disk. -/
def start (args : List String) (env : Environment) (file : Option ByteArray) (disk : Session.Disk) : Progress :=
  match parseArguments args with
  | .error fault => failed [] fault.chain
  | .ok .help => .ended ⟨0, helpLines, []⟩
  | .ok .version => .ended ⟨0, [versionLine], []⟩
  | .ok (.run mode user) =>
    match Config.load env file with
    | .error e => failed [] (configFailure e)
    | .ok c =>
      match c.validate mode with
      | .error e => failed [] (configFailure e)
      | .ok () => launch c mode user disk

/-- How a console ends that finds no terminal. -/
def withoutTerminal (output : List String) : Outcome :=
  ⟨0, output ++ farewellLines, ["", "Error: No such device or address (os error 6)", ""]⟩

end VaultChat.Console
