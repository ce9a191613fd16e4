import VaultChat.Chat.Plan
import VaultChat.Engine.Procedure
import VaultChat.Password.Generator

/-!
# Responding to events

The procedure by which an event is answered.  Every path asks for the session first where it needs one, calls the
vault at most once, and ends with a reply that names no internals: a failure is answered by its kind alone.
-/

namespace VaultChat.Engine

open Chat

structure Settings where
  /-- How long a new or refreshed session lives. -/
  sessionTtl : Span
  refresh : Session.RefreshPolicy
  /-- The length of a password for which none is asked for. -/
  defaultLength : Nat

/-- What a user is told about a failure; `rejected` is for input or requests that were refused. -/
def failureText (e : Error) (rejected : String) : String :=
  match e.kind, e with
  | .unauthenticated, _ => Wording.pleaseAuthenticate
  | .transport, .vault _ => Wording.vaultUnavailable
  | .transport, _ => Wording.storageUnavailable
  | .vaultRejected, _ | .invalidInput, _ | .configurationFatal, _ => rejected

def failure (e : Error) (rejected : String) : Reply := .plain (failureText e rejected)

/-- The live token of a user, or an error where there is none. -/
def liveToken (user : UserId) : Procedure (Except Error Token) := do
  match ← Procedure.session user with
  | .ok (some token) => return .ok token
  | .ok none => return .error .unauthenticated
  | .error e => return .error e

/-- Adds to the reply of a successful call what becomes of the session under the refresh policy. -/
def refreshed (settings : Settings) (user : UserId) (mutating : Bool) (reply : Reply) : Procedure Reply := do
  if settings.refresh.appliesTo mutating then
    match ← Procedure.extendSession user settings.sessionTtl with
    | .ok _ => return reply
    | .error _ => return reply.andPlain Wording.refreshFailed
  else
    return reply

/-- The reply to a failed call that showed a token.  A refused token ends the session. -/
def bearerFailure (user : UserId) (e : Vault.Failure) (rejected : String) : Procedure Reply := do
  match e with
  | .authFailed =>
    let _ ← Procedure.forgetSession user
    return .plain Wording.sessionExpired
  | e => return failure (.vault e) rejected

/-- A stored password: the header, then the password alone so that it can be hidden. -/
def renderEntry (entry : Vault.PasswordEntry) : Reply :=
  [.plain (Wording.entryHeader entry), .hidden entry.password]

/-! ### Effects -/

def beginLogin (user : UserId) : Procedure Transition := do
  match ← liveToken user with
  | .ok _ => return .idle (.plain Wording.alreadyAuthenticated)
  | .error .unauthenticated =>
    match ← Procedure.ask (.register user.username) with
    | .ok credentials =>
      return ⟨.awaitingCredentials,
        [.plain Wording.registered, .hidden (Wording.masterKey credentials.masterKey),
          .hidden (Wording.totpSecret credentials.totpSecret), .plain Wording.credentialsPrompt]⟩
    | .error .conflict =>
      return ⟨.awaitingCredentials, [.plain Wording.alreadyRegistered, .plain Wording.credentialsPrompt]⟩
    | .error e => return .idle (failure (.vault e) Wording.registrationFailed)
  | .error e => return .idle (failure e Wording.registrationFailed)

def authenticate (settings : Settings) (user : UserId) (masterKey : String) (code : Code) :
    Procedure Transition := do
  match ← Procedure.ask (.authenticate user.username masterKey code) with
  | .ok token =>
    match ← Procedure.storeSession user token settings.sessionTtl with
    | .ok () => return .idle (.plain Wording.loginOk)
    | .error _ => return .idle (.plain Wording.sessionNotSaved)
  | .error e => return .idle (failure (.vault e) Wording.loginFailed)

def beginAddPassword (user : UserId) : Procedure Transition := do
  match ← liveToken user with
  | .ok _ => return ⟨.awaitingEntry, .plain Wording.entryPrompt⟩
  | .error e => return .idle (failure e Wording.unknownCommand)

def addPassword (settings : Settings) (user : UserId) (entry : Vault.NewPassword) : Procedure Reply := do
  match ← liveToken user with
  | .ok token =>
    match ← Procedure.ask (.addPassword token entry) with
    | .ok () => refreshed settings user true (.plain Wording.passwordAdded)
    | .error e => bearerFailure user e Wording.passwordNotAdded
  | .error e => return failure e Wording.passwordNotAdded

def logOut (user : UserId) : Procedure Reply := do
  match ← Procedure.forgetSession user with
  | .ok true => return .plain Wording.loggedOut
  | .ok false => return .plain Wording.notLoggedIn
  | .error e => return failure e Wording.notLoggedIn

def deleteAccount (user : UserId) (code : Code) : Procedure Reply := do
  match ← Procedure.ask (.deleteAccount user.username code) with
  | .ok () =>
    -- A session that cannot be removed is useless now and lapses in time.
    let _ ← Procedure.forgetSession user
    return .plain Wording.accountDeleted
  | .error e => return failure (.vault e) Wording.accountNotDeleted

def perform (settings : Settings) (user : UserId) : Effect → Procedure Transition
  | .beginLogin => beginLogin user
  | .authenticate masterKey code => authenticate settings user masterKey code
  | .beginAddPassword => beginAddPassword user
  | .addPassword entry => return .idle (← addPassword settings user entry)
  | .logOut => return .idle (← logOut user)
  | .deleteAccount code => return .idle (← deleteAccount user code)

/-! ### Queries -/

def listPasswords (settings : Settings) (user : UserId) : Procedure Reply := do
  match ← liveToken user with
  | .ok token =>
    match ← Procedure.ask (.listPasswords token) with
    | .ok [] => refreshed settings user false (.plain Wording.noPasswords)
    | .ok entries => refreshed settings user false (entries.flatMap renderEntry)
    | .error e => bearerFailure user e Wording.listFailed
  | .error e => return failure e Wording.listFailed

def showPassword (settings : Settings) (user : UserId) (id : Int) : Procedure Reply := do
  match ← liveToken user with
  | .ok token =>
    match ← Procedure.ask (.getPassword token id) with
    | .ok entry => refreshed settings user false (renderEntry entry)
    | .error .notFound => return .plain Wording.noSuchEntry
    | .error e => bearerFailure user e Wording.listFailed
  | .error e => return failure e Wording.listFailed

def deletePassword (settings : Settings) (user : UserId) (id : Int) : Procedure Reply := do
  match ← liveToken user with
  | .ok token =>
    match ← Procedure.ask (.deletePassword token id) with
    | .ok () => refreshed settings user true (.plain Wording.passwordDeleted)
    | .error .notFound => return .plain Wording.noSuchEntry
    | .error e => bearerFailure user e Wording.deleteFailed
  | .error e => return failure e Wording.deleteFailed

def generatePassword (length : Nat) : Procedure Reply := do
  match Password.freeCharacters length with
  | .ok extra => return .hidden (← Procedure.choices extra).password
  | .error e => return failure e Wording.invalidLength

def unmatched (user : UserId) : Procedure Reply := do
  match ← liveToken user with
  | .ok _ => return .plain Wording.unknownCommand
  | .error e => return failure e Wording.unknownCommand

def reply (settings : Settings) (user : UserId) : Query → Procedure Reply
  | .listPasswords => listPasswords settings user
  | .showPassword id => showPassword settings user id
  | .deletePassword id => deletePassword settings user id
  | .generatePassword length => generatePassword (length.getD settings.defaultLength)
  | .unmatched => unmatched user

/-- How an event of a user is answered in a dialogue. -/
def respond (settings : Settings) (user : UserId) (flow : Flow) (event : Event) : Procedure Transition :=
  match plan flow event with
  | .done t => return t
  | .answer q => return ⟨flow, ← reply settings user q⟩
  | .run e => perform settings user e

end VaultChat.Engine
