import VaultChat.Chat.Reply
import VaultChat.Text.Blank
import VaultChat.Text.Quoted
import VaultChat.Text.Units

/-!
# Delivery through Telegram

Every message of a reply is sent, whatever became of the ones before it, and the first failure is reported.  A
sensitive message is covered by a spoiler from end to end and cannot be forwarded.
-/

namespace VaultChat.Telegram

open Chat (Message Reply)

inductive Failure where
  | tokenNotSet
  /-- The service refused a request, for the reason described. -/
  | refused (description : String)
  /-- A request came to nothing. -/
  | request (reason : String)
  deriving DecidableEq, Repr

/-- The reasons that the service is known to give for not sending a message. -/
def knownReasons : List String :=
  ["Forbidden: bot was blocked by the user", "Not Found", "Bad Request: MESSAGE_ID_INVALID",
   "Bad Request: message text is empty", "Bad Request: message is too long", "Bad Request: MESSAGE_TOO_LONG",
   "Bad Request: chat not found", "Bad Request: user not found", "Bad Request: reply message not found",
   "Forbidden: bot was kicked from the supergroup chat", "Forbidden: bot was kicked from the channel chat",
   "Forbidden: user is deactivated", "Forbidden: bot can't initiate conversation with a user",
   "Forbidden: bot can't send messages to bots", "Unauthorized: bot was kicked from a chat",
   "Unauthorized: user is deactivated", "Unauthorized: bot can't initiate conversation with a user",
   "Unauthorized: bot can't send messages to bots", "Request Entity Too Large",
   "Conflict: terminated by other getUpdates request; make sure that only one bot instance is running"]

def Failure.message : Failure → String
  | .tokenNotSet => "Telegram token not set"
  | .refused description =>
    let reason := if knownReasons.contains description then description
      else s!"Unknown error: {Text.quote description}"
    s!"Teloxide error: {reason}"
  | .request reason => s!"Request error: {reason}"

/-- A request that is to be sent again after some seconds, or to another chat. -/
def Failure.retryAfter (seconds : Nat) : Failure := .request s!"Retry after {seconds}s"

def Failure.migrated (chat : Int) : Failure :=
  .request s!"The group has been migrated to a supergroup with ID #{chat}"

/-- Refuses the token of a bot if nothing but blanks is in it. -/
def checkToken (token : String) : Except Failure Unit :=
  if (Text.trim token.toList).isEmpty then .error .tokenNotSet else .ok ()

/-- A part of a text that is covered until it is tapped, in UTF-16 units. -/
structure Spoiler where
  offset : Nat
  length : Nat
  deriving DecidableEq, Repr

def Spoiler.whole (text : String) : Spoiler := ⟨0, Text.units16 text.toList⟩

/-- What is sent for a message: its text, and for a sensitive one its cover, which also keeps it from being
forwarded. -/
structure Post where
  text : String
  cover : Option Spoiler
  deriving DecidableEq, Repr

def Post.ofMessage (m : Message) : Post := ⟨m.text, if m.sensitive then some (.whole m.text) else none⟩

def Post.isProtected (p : Post) : Bool := p.cover.isSome

/-- Sends every message in order, and gives the first failure. -/
def deliverAll {τ : Type} (send : Post → τ → Option Failure × τ) : Reply → τ → Option Failure × τ
  | [], t => (none, t)
  | m :: ms, t =>
    let (first, t) := send (.ofMessage m) t
    let (later, t) := deliverAll send ms t
    (first.or later, t)

end VaultChat.Telegram
