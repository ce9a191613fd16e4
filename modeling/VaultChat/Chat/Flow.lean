/-!
# Dialogues

Which dialogue a user is in, and what it waits for.
-/

namespace VaultChat.Chat

inductive Flow where
  | idle
  | awaitingCredentials
  | awaitingEntry
  | confirmingReset
  | awaitingCode
  deriving DecidableEq, Repr, Inhabited

end VaultChat.Chat
