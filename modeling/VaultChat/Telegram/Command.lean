import VaultChat.Chat.Command

/-!
# Commands of a Telegram bot

The service offers the commands of the menu and has a reading of its own for them: the first space ends the word,
whose name is compared exactly, and a mention in the word has to be the bot's own.  What is not read this way may
still be a command line (`route`).
-/

namespace VaultChat.Telegram

open Chat (Command Event)

structure MenuItem where
  name : String
  description : String
  deriving DecidableEq, Repr

/-- The commands that the service offers, in order. -/
def menu : List MenuItem :=
  [⟨"start", "register or log in"⟩,
   ⟨"add", "save a password"⟩,
   ⟨"get", "list saved passwords"⟩,
   ⟨"show", "show one password: /show <id>"⟩,
   ⟨"delete", "delete one password: /delete <id>"⟩,
   ⟨"gen", "generate a password: /gen [length]"⟩,
   ⟨"logout", "end your session"⟩,
   ⟨"reset_forever", "delete your account"⟩,
   ⟨"cancel", "abort the current step"⟩,
   ⟨"help", "show help"⟩]

/-- The command of a menu item with an argument. -/
def commandOf? (name : String) (arg : List Char) : Option Command :=
  if menu.any (·.name == name) then Command.ofName? name (String.ofList (Text.trim arg)) else none

/-- Why a text is no command of the menu. -/
inductive Misread where
  | unknownCommand (word : String)
  | wrongBotName (name : String)
  deriving DecidableEq, Repr

/-- The command in a text for the bot named `me`. -/
def parse (me text : String) : Except Misread Command :=
  let (head, arg) := Text.cut (· == ' ') text.toList
  let (word, mentions) := Text.cut (· == '@') head
  let unknown := Misread.unknownCommand (String.ofList word)
  let command : Except Misread Command :=
    match word with
    | '/' :: name =>
      match commandOf? (String.ofList name) (arg.getD []) with
      | some c => .ok c
      | none => .error unknown
    | _ => .error unknown
  match mentions with
  | none => command
  | some mentions =>
    let name := (Text.cut (· == '@') mentions).1
    if Text.eqIgnoringCase name me.toList then command else .error (.wrongBotName (String.ofList name))

/-- The first word behind the slash of a command line has a mention, and it is not `me`. -/
def addressedElsewhere (me text : String) : Bool :=
  match Chat.afterSlash? text.toList with
  | none => false
  | some rest =>
    match (Text.words rest).head?.bind fun word => (Chat.splitMention word).2 with
    | some mention => !Text.eqIgnoringCase mention me.toList
    | none => false

/-- The event that a text in a private or another chat stands for.  Elsewhere than in private, a command for another
bot stands for nothing. -/
def route (me : String) (isPrivate : Bool) (text : String) : Option Event :=
  match parse me text with
  | .ok c => some (.command c)
  | .error _ => if !isPrivate && addressedElsewhere me text then none else some (.ofLine text)

end VaultChat.Telegram
