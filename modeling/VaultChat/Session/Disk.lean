import VaultChat.Session.Table

/-!
# Databases on disk

A disk holds directories, plain files and databases.  To open a database at a path creates the directories on the way
to it, the database itself and its table, as far as they are missing.  A file is taken for a database only if it is
empty.
-/

namespace VaultChat.Session

/-- The names on the way from the working directory. -/
abbrev Path := List String

inductive Node where
  | directory
  | file (content : String)
  | database (table : Option Table)

structure Disk where
  nodes : KeyMap Path Node

namespace Disk

def empty : Disk := ⟨∅⟩

/-- The names that a path goes through.  Empty names and single dots say nothing. -/
def namesOf (text : String) : List String := (text.splitOn "/").filter fun name => name ≠ "" && name ≠ "."

/-- One name further on a path.  Two dots lead back. -/
def into (p : Path) (name : String) : Path := if name = ".." then p.dropLast else p ++ [name]

def pathOf (text : String) : Path := (namesOf text).foldl into []

/-- Whether a file or a directory can have this name. -/
def isName (name : String) : Bool := name.utf8ByteSize < 256 && !name.toList.contains '\x00'

/-- What is at a path.  The working directory is always there. -/
def node? (d : Disk) (p : Path) : Option Node := if p = [] then some .directory else d.nodes.find? p

def put (d : Disk) (p : Path) (n : Node) : Disk := ⟨d.nodes.insert p n⟩

def writeFile (d : Disk) (p : Path) (content : String) : Disk := d.put p (.file content)

/-- Makes the directories that the names lead through, from `here` on. -/
def makeDirectories (here : Path) : List String → Disk → Except Error Unit × Disk
  | [], d => (.ok (), d)
  | name :: names, d =>
    match d.node? (into here name) with
    | some .directory => makeDirectories (into here name) names d
    | some _ => (.error .io, d)
    | none =>
      if isName name then makeDirectories (into here name) names (d.put (into here name) .directory)
      else (.error .io, d)

/-- Opens or creates the database at a path and makes sure that it has its table. -/
def openDatabase (text : String) (d : Disk) : Except Error Unit × Disk :=
  match makeDirectories [] (namesOf text).dropLast d with
  | (.error e, d) => (.error e, d)
  | (.ok (), d) =>
    let p := pathOf text
    match d.node? p with
    | none => if p.all isName then (.ok (), d.put p (.database (some ∅))) else (.error .database, d)
    | some (.file "") | some (.database none) => (.ok (), d.put p (.database (some ∅)))
    | some (.database (some _)) => (.ok (), d)
    | some .directory | some (.file _) => (.error .database, d)

/-- Removes the table of the database at a path. -/
def dropTable (p : Path) (d : Disk) : Disk :=
  match d.node? p with
  | some (.database _) => d.put p (.database none)
  | _ => d

/-- Runs an operation on the table of the database at a path.  It fails where there is none. -/
def onTable {α : Type} (p : Path) (op : Table → Except Error α × Table) (d : Disk) : Except Error α × Disk :=
  match d.node? p with
  | some (.database (some t)) =>
    let (r, t) := op t
    (r, d.put p (.database (some t)))
  | _ => (.error .database, d)

end Disk

/-- The cache in the database at a path. -/
def diskCache (p : Path) : Cache Disk where
  get now key := Disk.onTable p (tableCache.get now key)
  set now key value ttl := Disk.onTable p (tableCache.set now key value ttl)
  delete now key := Disk.onTable p (tableCache.delete now key)
  expire now key ttl := Disk.onTable p (tableCache.expire now key ttl)

end VaultChat.Session
