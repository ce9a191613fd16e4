import VaultChat.Toml.Number

/-!
# Tables under construction

The value of a key is a scalar, an array, or a table in one of several forms.  How a table came about decides what may
still be added to it: a table with a header of its own takes further keys under that header alone, a table that only
the headers of others imply may still get one, and a table that dotted keys made grows by dotted keys.
-/

namespace VaultChat.Toml

/-- How a table came about. -/
inductive Origin where
  /-- A header of its own. -/
  | header
  /-- A header of a table inside of it. -/
  | implied
  /-- A dotted key. -/
  | dotted
  deriving DecidableEq, Repr

inductive Value where
  | text (s : String)
  | integer (n : Int)
  | boolean (b : Bool)
  | float (literal : String)
  | moment (literal : String)
  | array (items : List Value)
  /-- A table on a single line, to which nothing can be added. -/
  | inline (entries : List (String × Value))
  | table (origin : Origin) (entries : List (String × Value))
  /-- The tables that share a header, the latest one apart. -/
  | tables (latest : List (String × Value)) (earlier : List (List (String × Value)))

abbrev Entries := List (String × Value)

namespace Entries

def find? (es : Entries) (key : String) : Option Value := (List.find? (fun e => e.1 == key) es).map Prod.snd

/-- The entry of the key is replaced, or added at the end. -/
def put (key : String) (v : Value) : Entries → Entries
  | [] => [(key, v)]
  | e :: es => if e.1 = key then (key, v) :: es else e :: put key v es

/-- Changes the table at the end of a path.  Tables that are missing on the way are made, with the origin `made`.  A
dotted key does not lead into a table with a header of its own. -/
def update (made : Origin) (change : Origin → Entries → Option Entries) :
    List String → Origin → Entries → Option Entries
  | [], origin, es => change origin es
  | key :: path, _, es =>
    match es.find? key with
    | none => (update made change path made []).map fun inner => es.put key (.table made inner)
    | some (.table origin inner) =>
      if made = .dotted ∧ origin = .header then none
      else (update made change path origin inner).map fun inner => es.put key (.table origin inner)
    | some (.tables latest earlier) =>
      (update made change path .header latest).map fun latest => es.put key (.tables latest earlier)
    | some _ => none

/-- Adds a pair to a table.  A dotted key ends in a table that dotted keys made. -/
def addPair (key : KeyPath) (v : Value) : Origin → Entries → Option Entries :=
  update .dotted (fun origin es =>
    if decide (origin = .dotted) = key.parents.isEmpty then none
    else if (es.find? key.last).isSome then none
    else some (es.put key.last v)) key.parents

/-- Gives a table its header. -/
def addTable (key : KeyPath) : Entries → Option Entries :=
  update .implied (fun _ es =>
    match es.find? key.last with
    | none => some (es.put key.last (.table .header []))
    | some (.table .implied inner) => some (es.put key.last (.table .header inner))
    | some _ => none) key.parents .header

/-- Starts another one of the tables that share a header. -/
def addElement (key : KeyPath) : Entries → Option Entries :=
  update .implied (fun _ es =>
    match es.find? key.last with
    | none => some (es.put key.last (.tables [] []))
    | some (.tables latest earlier) => some (es.put key.last (.tables [] (latest :: earlier)))
    | some _ => none) key.parents .header

/-- The table of the given pairs. -/
def ofPairs? (pairs : List (KeyPath × Value)) : Option Entries :=
  pairs.foldlM (fun es (key, v) => es.addPair key v .header) []

end Entries

/-! ### Reading a value -/

open Text (Reader)
open Text.Reader

def boolean : Reader Char Bool :=
  exactly ['t', 'r', 'u', 'e'] *> pure true <|> exactly ['f', 'a', 'l', 's', 'e'] *> pure false

/-- A value without parts.  A moment or a float may start like an integer, and goes first. -/
def plainValue : Reader Char Value :=
  .text <$> string <|> .moment <$> moment <|> .float <$> float <|> .integer <$> integer <|> .boolean <$> boolean

/-- A pair inside a single line. -/
def pair (value : Reader Char Value) : Reader Char (KeyPath × Value) := do
  let key ← keyPath
  exactly ['=']
  gap
  return (key, ← value)

/-- An array.  A comma may follow its last item. -/
def array (value : Reader Char Value) : Reader Char (List Value) := do
  exactly ['[']
  let items ← perhaps (separated (exactly [',']) (spread *> value <* spread))
  if items.isSome then discard (perhaps (exactly [',']))
  spread
  exactly [']']
  return items.getD []

def inlineTable (value : Reader Char Value) : Reader Char Entries := do
  exactly ['\x7b']
  let pairs ← perhaps (separated (exactly [',']) (pair value <* gap))
  gap
  exactly ['\x7d']
  match Entries.ofPairs? (pairs.getD []) with
  | some es => return es
  | none => failure

/-- A value in which arrays and inline tables lie in one another at most so deep. -/
def value : Nat → Reader Char Value
  | 0 => plainValue
  | depth + 1 => .array <$> array (value depth) <|> .inline <$> inlineTable (value depth) <|> plainValue

/-- The deepest nesting of arrays and inline tables. -/
def maxDepth : Nat := 79

end VaultChat.Toml
