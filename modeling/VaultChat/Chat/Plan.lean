import VaultChat.Chat.Command
import VaultChat.Chat.Flow
import VaultChat.Chat.Input
import VaultChat.Chat.Reply
import VaultChat.Chat.Wording

/-!
# Plans

What an event does in a dialogue, as far as the dialogue and the event alone decide it.  A plan is either complete, or
an effect whose outcome decides how the dialogue goes on, or a query that leaves the dialogue alone.
-/

namespace VaultChat.Chat

/-- The next step of a dialogue and what to say. -/
structure Transition where
  next : Flow
  reply : Reply
  deriving DecidableEq

/-- Ends any dialogue. -/
def Transition.idle (reply : Reply) : Transition := ⟨.idle, reply⟩

/-- Work on sessions or at the vault that decides how the dialogue goes on. -/
inductive Effect where
  | beginLogin
  | authenticate (masterKey : String) (code : Code)
  | beginAddPassword
  | addPassword (entry : Vault.NewPassword)
  | logOut
  | deleteAccount (code : Code)
  deriving DecidableEq

/-- Work that is answered at once and leaves the dialogue alone. -/
inductive Query where
  | listPasswords
  | showPassword (id : Int)
  | deletePassword (id : Int)
  | generatePassword (length : Option Nat)
  | unmatched
  deriving DecidableEq

inductive Plan where
  | done (t : Transition)
  | run (e : Effect)
  | answer (q : Query)
  deriving DecidableEq

/-- A name that tells nothing secret. -/
def Effect.name : Effect → String
  | .beginLogin => "begin_login"
  | .authenticate .. => "authenticate"
  | .beginAddPassword => "begin_add_password"
  | .addPassword _ => "add_password"
  | .logOut => "logout"
  | .deleteAccount _ => "delete_account"

/-- What logs show of an effect. -/
def Effect.label (e : Effect) : String := "Effect::" ++ e.name

def Query.name : Query → String
  | .listPasswords => "list_passwords"
  | .showPassword _ => "show_password"
  | .deletePassword _ => "delete_password"
  | .generatePassword _ => "generate_password"
  | .unmatched => "unmatched"

/-- Says something and stays where the dialogue is. -/
def Plan.stay (flow : Flow) (text : String) : Plan := .done ⟨flow, .plain text⟩

/-- What free text does.  Each step takes the text in its own form. -/
def planText (flow : Flow) (text : String) : Plan :=
  match flow with
  | .idle => .answer .unmatched
  | .awaitingCredentials =>
    match parseCredentials text with
    | some (masterKey, code) => .run (.authenticate masterKey code)
    | none => .stay flow Wording.credentialsMalformed
  | .awaitingEntry =>
    match parseEntry text with
    | some entry => .run (.addPassword entry)
    | none => .stay flow Wording.entryMalformed
  | .confirmingReset =>
    if isConfirmation text then .stay .awaitingCode Wording.resetCodePrompt else .stay .idle Wording.cancelled
  | .awaitingCode =>
    match parseCode text.toList with
    | some code => .run (.deleteAccount code)
    | none => .stay flow Wording.codeMalformed

/-- What a command does.  Commands that open a dialogue replace the one in progress. -/
def planCommand (flow : Flow) : Command → Plan
  | .start => .run .beginLogin
  | .add => .run .beginAddPassword
  | .resetForever => .stay .confirmingReset Wording.resetConfirm
  | .cancel =>
    if flow = .idle then .stay flow Wording.nothingToCancel else .stay .idle Wording.cancelled
  | .logOut => .run .logOut
  | .list => .answer .listPasswords
  | .showEntry arg =>
    match parseId arg with
    | some id => .answer (.showPassword id)
    | none => .stay flow Wording.invalidId
  | .deleteEntry arg =>
    match parseId arg with
    | some id => .answer (.deletePassword id)
    | none => .stay flow Wording.invalidId
  | .generate arg =>
    if arg = "" then .answer (.generatePassword none)
    else
      match parseLength arg with
      | some length => .answer (.generatePassword (some length))
      | none => .stay flow Wording.lengthNotANumber
  | .help => .stay flow Wording.help
  | .unknown line => planText flow line

/-- What an event does in a dialogue. -/
def plan (flow : Flow) : Event → Plan
  | .command c => planCommand flow c
  | .text t => planText flow t

end VaultChat.Chat
