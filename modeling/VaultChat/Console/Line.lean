import VaultChat.Chat.Reply
import VaultChat.Text.Blank
import VaultChat.Text.Lowercase

/-!
# Lines of the console

Some lines are meant for the console itself.  While a line is typed, the commands that it may become are suggested.
Replies are shown with their sensitive messages concealed.
-/

namespace VaultChat.Console

/-- What a line does. -/
inductive Action where
  | exit
  | clearScreen
  | forward
  deriving DecidableEq, Repr

def Action.name : Action → String
  | .exit => "Exit"
  | .clearScreen => "ClearScreen"
  | .forward => "Forward"

/-- Lines for the console are written in letters of any case. -/
def Action.ofLine (line : String) : Action :=
  match String.ofList (Text.lowercase line.toList) with
  | "/exit" | "/quit" | "/q" => .exit
  | "/clear" => .clearScreen
  | _ => .forward

structure Suggestion where
  value : String
  description : String
  deriving DecidableEq, Repr

def suggestions : List Suggestion :=
  [⟨"/start", "register or log in"⟩,
   ⟨"/add", "save a password"⟩,
   ⟨"/get", "list saved passwords"⟩,
   ⟨"/show", "show one password"⟩,
   ⟨"/delete", "delete one password"⟩,
   ⟨"/gen", "generate a password"⟩,
   ⟨"/logout", "end your session"⟩,
   ⟨"/reset_forever", "delete your account"⟩,
   ⟨"/cancel", "abort the current step"⟩,
   ⟨"/help", "show help"⟩,
   ⟨"/clear", "clear the screen"⟩,
   ⟨"/exit", "quit"⟩]

/-- The commands that start with the line, once a slash has been typed. -/
def complete (line : String) : List Suggestion :=
  if line.toList.head? = some '/' then suggestions.filter fun s => line.toList.isPrefixOf s.value.toList else []

/-- A text between a switch for its graphic rendition and the switch back. -/
def rendition (code : Nat) (text : String) : String := s!"\x1b[{code}m{text}\x1b[0m"

/-- How a message is shown.  Concealed text can still be selected and copied. -/
def render (m : Chat.Message) : String :=
  if m.sensitive then rendition 33 "(hidden, select to copy)" ++ " " ++ rendition 8 m.text else m.text

def welcomeLines : List String :=
  ["", "pm-gateway console", "Type /start to log in, /help for commands, /exit to quit.",
   "Type / to see command suggestions.", ""]

def farewellLines : List String := ["", "Bye.", ""]

end VaultChat.Console
