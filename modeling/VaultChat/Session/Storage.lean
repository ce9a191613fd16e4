import VaultChat.Session.Disk
import VaultChat.Session.Memory

/-!
# Storage chosen at run time

Sessions are kept in memory, in a table that lives as long as the process, or in a database on disk.
-/

namespace VaultChat.Session

inductive Storage where
  | memory (m : Memory)
  | table (t : Table)
  | disk (p : Path) (d : Disk)

namespace Storage

/-- The number of stored entries, where they are counted.  Entries that have expired unnoticed count. -/
def size? : Storage → Option Nat
  | .memory m => some m.size
  | .table _ | .disk .. => none

/-- Runs the operation that a cache of the kind in use has for it. -/
private def dispatch {α : Type} (inMemory : Memory → α × Memory) (inTable : Table → α × Table)
    (onDisk : Path → Disk → α × Disk) : Storage → α × Storage
  | .memory m => (inMemory m).map id .memory
  | .table t => (inTable t).map id .table
  | .disk p d => (onDisk p d).map id (.disk p)

end Storage

def storageCache : Cache Storage where
  get now key := Storage.dispatch (memoryCache.get now key) (tableCache.get now key)
    fun p => (diskCache p).get now key
  set now key value ttl := Storage.dispatch (memoryCache.set now key value ttl) (tableCache.set now key value ttl)
    fun p => (diskCache p).set now key value ttl
  delete now key := Storage.dispatch (memoryCache.delete now key) (tableCache.delete now key)
    fun p => (diskCache p).delete now key
  expire now key ttl := Storage.dispatch (memoryCache.expire now key ttl) (tableCache.expire now key ttl)
    fun p => (diskCache p).expire now key ttl

end VaultChat.Session
