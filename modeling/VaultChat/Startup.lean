import VaultChat.Config.Sections
import VaultChat.Session.Storage
import VaultChat.Vault.Client

/-!
# Starting the gateway

A configuration decides where sessions are kept and which vault is asked.  A database that cannot be opened keeps the
gateway from starting.
-/

namespace VaultChat

/-- What a gateway runs on. -/
structure Gateway where
  settings : Engine.Settings
  sessions : Session.Storage
  client : Vault.Client

/-- Why a gateway does not start. -/
inductive StartupFailure where
  | sessionDatabase (e : Error)
  deriving DecidableEq

def StartupFailure.message : StartupFailure → String
  | .sessionDatabase _ => "Failed to open session database"

/-- The storage of a configuration.  Without a name, or under the name for it, a database lives in memory. -/
def Config.openStorage (c : Config) (disk : Session.Disk) : Except StartupFailure Session.Storage :=
  match c.backend with
  | .memory => .ok (.memory ∅)
  | .sqlite =>
    if c.databasePath = "" ∨ c.databasePath = ":memory:" then .ok (.table ∅)
    else
      match disk.openDatabase c.databasePath with
      | (.ok (), disk) => .ok (.disk (Session.Disk.pathOf c.databasePath) disk)
      | (.error e, _) => .error (.sessionDatabase e)

def Gateway.ofConfig (c : Config) (disk : Session.Disk) : Except StartupFailure Gateway := do
  return ⟨c.engineSettings, ← c.openStorage disk, .ofUrl c.vaultUrl⟩

end VaultChat
