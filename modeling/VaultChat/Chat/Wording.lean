import VaultChat.Password.Alphabet
import VaultChat.Vault.Basic

/-!
# Wording

Every text that a user reads.
-/

namespace VaultChat.Chat.Wording

def alreadyAuthenticated : String := "You are already logged in. Use /add, /get, /gen or /logout."

def registered : String :=
  "Account created. Below are your master key and TOTP secret. " ++
    "They are shown only once: store them somewhere safe, then delete these messages."

def credentialsPrompt : String :=
  "Send your master key and the current 6-digit code from your authenticator, separated by a space."

def alreadyRegistered : String := "Welcome back."

def credentialsMalformed : String :=
  "Please send exactly two values: <master_key> <totp_code>. The code must be numeric."

def registrationFailed : String := "Registration failed. Please try /start again later."

def loginOk : String := "Logged in. You can now use /add, /get, /gen or /logout."

def loginFailed : String := "Authentication failed. Send /start to try again."

def sessionNotSaved : String :=
  "The vault accepted your credentials but the session could not be saved. Please try /start again later."

def pleaseAuthenticate : String := "Please log in first with /start."

def sessionExpired : String := "Your session has expired. Please log in again with /start."

def unknownCommand : String := "Unknown command. Send /help to see what I can do."

def entryPrompt : String :=
  "Send the service, login and password separated by spaces: <service> <login> <password>. /cancel to abort."

def entryMalformed : String :=
  "Please use the format: <service> <login> <password>. The password may contain spaces."

def passwordAdded : String := "Password saved."

def passwordNotAdded : String := "Could not save the password. Send /add to try again."

def noPasswords : String := "No saved passwords."

def listFailed : String := "Could not fetch your passwords."

def noSuchEntry : String := "No saved password with that id."

def invalidId : String := "Please give a numeric id, e.g. /show 12 or /delete 12."

def passwordDeleted : String := "Password deleted."

def deleteFailed : String := "Could not delete the password."

def loggedOut : String := "You have been logged out."

def notLoggedIn : String := "You were not logged in."

def resetConfirm : String :=
  "This permanently deletes your account and every stored password. Type \"yes\" to continue, anything else to abort."

def resetCodePrompt : String := "Send the current code from your authenticator to confirm deletion."

def codeMalformed : String := "The code must be numeric. Send it again or /cancel."

def accountDeleted : String := "Your account has been deleted."

def accountNotDeleted : String :=
  "Account deletion failed. Check the code and start over with /reset_forever."

def cancelled : String := "Cancelled."

def nothingToCancel : String := "Nothing to cancel."

def vaultUnavailable : String := "The vault is unreachable right now. Please try again later."

def storageUnavailable : String := "Session storage is unavailable right now. Please try again later."

def refreshFailed : String :=
  "Note: your session could not be extended and may expire sooner than expected."

def lengthNotANumber : String := "Usage: /gen [length], for example /gen 24."

def help : String :=
  "🔐 pm-gateway

/start - register or log in
/add - save a password
/get - list saved passwords
/show <id> - show one password
/delete <id> - delete one password
/gen [length] - generate a random password
/logout - end your session
/reset_forever - delete your account
/cancel - abort the current step
/help - show this message"

def invalidLength : String :=
  s!"Password length must be between {Password.minLength} and {Password.maxLength}."

def masterKey (value : String) : String := "Master key: " ++ value

def totpSecret (value : String) : String := "TOTP secret: " ++ value

/-- The visible part of a stored password. -/
def entryHeader (entry : Vault.PasswordEntry) : String :=
  s!"#{entry.id} {entry.service}\nLogin: {entry.login}" ++
    match entry.updatedAt with
    | some time => "\nUpdated: " ++ time
    | none => ""

end VaultChat.Chat.Wording
