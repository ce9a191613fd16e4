/-!
# Replies

A reply is a list of messages in the order in which they are sent.  A sensitive message stays hidden until the user
acts on it.
-/

namespace VaultChat.Chat

structure Message where
  text : String
  sensitive : Bool
  deriving DecidableEq

def Message.plain (text : String) : Message := ⟨text, false⟩

def Message.hidden (text : String) : Message := ⟨text, true⟩

abbrev Reply := List Message

namespace Reply

def plain (text : String) : Reply := [.plain text]

def hidden (text : String) : Reply := [.hidden text]

def andPlain (r : Reply) (text : String) : Reply := r ++ [.plain text]

def andHidden (r : Reply) (text : String) : Reply := r ++ [.hidden text]

end Reply

end VaultChat.Chat
