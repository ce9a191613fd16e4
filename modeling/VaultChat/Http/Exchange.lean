import VaultChat.Http.Url

/-!
# Requests and what comes back

A request is sent to an address.  What comes back is a status with a body, which may have been cut short, or nothing.
-/

namespace VaultChat.Http

inductive Method where
  | get
  | post
  | delete
  deriving DecidableEq, Repr

structure Request where
  method : Method
  url : Url
  /-- The credential that the request shows. -/
  bearer : Option String
  /-- An object in written form. -/
  body : Option String

inductive Reception where
  | nothing
  /-- An answer, whose body is missing if it was cut short. -/
  | answer (status : Nat) (body : Option ByteArray)

/-- A header holds no control characters but tabs. -/
def fitsHeader (s : String) : Bool := s.toList.all fun c => c == '\t' || (0x20 ≤ c.toNat && c.toNat ≠ 0x7F)

/-- What requests are sent through, with a state of its own. -/
structure Network (τ : Type) where
  send : Request → τ → Reception × τ

/-- A network on which nobody answers. -/
def Network.silent : Network Unit := ⟨fun _ _ => (.nothing, ())⟩

end VaultChat.Http
