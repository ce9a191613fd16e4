/-!
# UTF-16 units

Chat services measure a text in UTF-16 units: two for a character outside of the first plane, one for any other.
-/

namespace VaultChat.Text

def units16 (cs : List Char) : Nat := cs.length + cs.countP fun c => 0x10000 ≤ c.toNat

end VaultChat.Text
