import VaultChat.Text.Blank
import VaultChat.Text.Lowercase

/-!
# Commands and events

A chat line is either free text or a command: after leading blanks a slash, a name up to the next blank or the first
at sign, and an argument.  Names are matched in lower case.  A line that starts like a command but names none is kept
whole, since a dialogue that waits for text takes it as text.
-/

namespace VaultChat.Chat

inductive Command where
  | start
  | add
  | list
  | showEntry (arg : String)
  | deleteEntry (arg : String)
  | generate (arg : String)
  | logOut
  | resetForever
  | cancel
  | help
  | unknown (line : String)
  deriving DecidableEq

/-- One message of a user. -/
inductive Event where
  | command (c : Command)
  | text (t : String)
  deriving DecidableEq

/-- The command with a lower-case name and a trimmed argument. -/
def Command.ofName? (name arg : String) : Option Command :=
  match name with
  | "start" => some .start
  | "add" => some .add
  | "get" | "list" => some .list
  | "show" => some (.showEntry arg)
  | "delete" => some (.deleteEntry arg)
  | "gen" => some (.generate arg)
  | "logout" => some .logOut
  | "reset_forever" => some .resetForever
  | "cancel" => some .cancel
  | "help" => some .help
  | _ => none

/-- The command that a name in any case and an untrimmed argument stand for. -/
def Command.parse? (name arg : List Char) : Option Command :=
  ofName? (String.ofList (Text.lowercase name)) (String.ofList (Text.trim arg))

/-- What follows the slash that opens a line, after any blanks. -/
def afterSlash? (line : List Char) : Option (List Char) :=
  match Text.trimStart line with
  | '/' :: rest => some rest
  | _ => none

/-- The part of a command word before its first at sign, and what follows that sign. -/
def splitMention (head : List Char) : List Char × Option (List Char) := Text.cut (· == '@') head

/-- What a chat line means. -/
def Event.ofLine (line : String) : Event :=
  match afterSlash? line.toList with
  | none => .text line
  | some rest =>
    let (head, arg) := Text.cut Text.isBlank rest
    .command (((Command.parse? (splitMention head).1 (arg.getD []))).getD (.unknown line))

end VaultChat.Chat
