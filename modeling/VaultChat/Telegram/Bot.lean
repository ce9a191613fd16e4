import VaultChat.Engine.Basic
import VaultChat.Telegram.Command
import VaultChat.Telegram.Delivery

/-!
# The bot

The bot handles new text messages that have a sender, and answers in the chat of the message.
-/

namespace VaultChat.Telegram

open Chat (Event)
open Engine (Surroundings Settings)

/-- A message that the service reports. -/
structure Update where
  /-- The message is new and not an edited one. -/
  isNew : Bool
  isPrivate : Bool
  sender : Option UserId
  text : Option String

/-- Who wants what, if the update is to be handled by the bot named `me`. -/
def Update.request? (u : Update) (me : String) : Option (UserId × Event) := do
  let sender ← u.sender
  let text ← u.text
  if !u.isNew then none
  return (sender, ← route me u.isPrivate text)

/-- Handles an event of a user and delivers the reply. -/
def handle {σ τ υ : Type} (settings : Settings) (env : Surroundings σ τ)
    (send : Post → υ → Option Failure × υ) (user : UserId) (event : Event) (e : Engine σ τ) (chat : υ) :
    Option Failure × Engine σ τ × υ :=
  let (reply, e) := e.handle settings env user event
  let (failure, chat) := deliverAll send reply chat
  (failure, e, chat)

end VaultChat.Telegram
