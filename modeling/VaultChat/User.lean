/-!
# Users

A user is the account number that the chat service supplies.
-/

namespace VaultChat

structure UserId where
  number : UInt64
  deriving DecidableEq

namespace UserId

/-- The account number in decimal, which is also the name of the user's account at the vault. -/
def username (u : UserId) : String := toString u.number.toNat

/-- The key under which the user's session is kept. -/
def sessionKey (u : UserId) : String := "session:" ++ u.username

end UserId

end VaultChat
