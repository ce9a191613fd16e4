import VaultChat.Http.Exchange
import VaultChat.Json.Quoted
import VaultChat.Json.Value
import VaultChat.Vault.Basic

/-!
# The vault over HTTP

Each call is one request to an address below the base address of the vault, and is never repeated.  The status of an
answer tells how a call fails; its body is read for a successful call only.
-/

namespace VaultChat.Vault

open Http Json

/-! ### Requests -/

def Call.method : Call → Method
  | .register _ | .authenticate .. | .addPassword .. => .post
  | .listPasswords _ | .getPassword .. => .get
  | .deletePassword .. | .deleteAccount .. => .delete

/-- Where a call goes, below the base address. -/
def Call.path : Call → String
  | .register _ | .deleteAccount .. => "/user"
  | .authenticate .. => "/auth"
  | .addPassword .. => "/password"
  | .listPasswords _ => "/passwords"
  | .getPassword _ id | .deletePassword _ id => s!"/password/{id}"

/-- What a call sends along.  The deletion of an account sends its code as a string. -/
def Call.body? : Call → Option String
  | .register username => some (object [("username", quoted username)])
  | .authenticate username masterKey code =>
    some (object [("username", quoted username), ("master_key", quoted masterKey), ("totp_code", toString code)])
  | .addPassword _ entry =>
    some (object [("service", quoted entry.service), ("login", quoted entry.login),
      ("password", quoted entry.password)])
  | .listPasswords _ | .getPassword .. | .deletePassword .. => none
  | .deleteAccount username code =>
    some (object [("username", quoted username), ("totp_code", quoted (toString code))])

/-! ### Answers -/

/-- How a call fails that is answered with this status. -/
def Failure.ofStatus (status : Nat) : Failure :=
  if status = 401 ∨ status = 403 then .authFailed
  else if status = 404 then .notFound
  else if status = 409 then .conflict
  else .rejected status

def isSuccess (status : Nat) : Bool := 200 ≤ status && status < 300

def credentialsOf? (v : Value) : Option Credentials :=
  match v.fields? ["master_key", "totp_secret"] with
  | some [some key, some secret] => do return ⟨← key.text?, ← secret.text?⟩
  | _ => none

def tokenOf? (v : Value) : Option Token :=
  match v.fields? ["token"] with
  | some [some token] => token.text?.map Token.mk
  | _ => none

/-- The time of the last change may be missing. -/
def entryOf? (v : Value) : Option PasswordEntry :=
  match v.fields? ["id", "service", "login", "password", "updated_at"] with
  | some [some id, some service, some login, some password, updated] => do
    let updated ← match updated with
      | none | some .null => pure none
      | some v => v.text?.map some
    return ⟨← id.integer?, ← service.text?, ← login.text?, ← password.text?, updated⟩
  | _ => none

def entriesOf? : Value → Option (List PasswordEntry)
  | .array items => items.mapM entryOf?
  | _ => none

/-- The result of a successful call.  Some calls do not look at the body. -/
def Call.resultOf? (body : Option ByteArray) : (c : Call) → Option c.Result
  | .register _ => (body.bind Value.read?).bind credentialsOf?
  | .authenticate .. => (body.bind Value.read?).bind tokenOf?
  | .listPasswords _ => (body.bind Value.read?).bind entriesOf?
  | .getPassword .. => (body.bind Value.read?).bind entryOf?
  | .addPassword .. | .deletePassword .. | .deleteAccount .. => some ()

/-- What a call to an address gives when this comes back. -/
def Call.receive (c : Call) (url : Url) : Reception → c.Answer
  | .nothing => .error (.transport s!"error sending request for url ({url.render})")
  | .answer status body =>
    if isSuccess status then
      match c.resultOf? body with
      | some r => .ok r
      | none => .error (.transport "invalid response body: error decoding response body")
    else .error (.ofStatus status)

/-! ### The client -/

structure Client where
  base : String
  deriving DecidableEq

namespace Client

/-- The client of the vault at a base address.  Slashes at its end say nothing. -/
def ofUrl (url : String) : Client := ⟨String.ofList (url.toList.reverse.dropWhile (· == '/')).reverse⟩

/-- The request for a call, unless the address or the token does not allow for one. -/
def request? (client : Client) (c : Call) : Except Failure Request :=
  match Url.parse? (client.base ++ c.path) with
  | none => .error (.transport "builder error")
  | some url =>
    let bearer := c.bearer?.map Token.text
    if url.host.isEmpty then .error (.transport s!"builder error for url ({url.render})")
    else if !bearer.all fitsHeader then .error (.transport "builder error")
    else if !url.isWeb then .error (.transport s!"builder error for url ({url.render})")
    else .ok ⟨c.method, url, bearer, c.body?⟩

/-- The vault as the client sees it through a network. -/
def service {τ : Type} (client : Client) (network : Network τ) : Service τ where
  respond c t :=
    match client.request? c with
    | .error e => (.error e, t)
    | .ok request =>
      let (reception, t) := network.send request t
      (c.receive request.url reception, t)

end Client

end VaultChat.Vault
