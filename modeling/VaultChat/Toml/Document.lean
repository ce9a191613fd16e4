import VaultChat.Toml.Value

/-!
# Documents

A document is a list of statements, each on lines of its own: headers, which say where the pairs after them belong,
and pairs.  `Document.read?` reads a text into the entries of the outermost table.
-/

namespace VaultChat.Toml

open Text (Reader)
open Text.Reader

inductive Statement where
  /-- The header of a table. -/
  | table (key : KeyPath)
  /-- The header of one of several tables. -/
  | element (key : KeyPath)
  | pair (key : KeyPath) (v : Value)

def statement : Reader Char Statement :=
  Statement.element <$> (exactly ['[', '['] *> keyPath <* exactly [']', ']'] <* lineEnd) <|>
    Statement.table <$> (exactly ['['] *> keyPath <* exactly [']'] <* lineEnd) <|>
    (fun (key, v) => Statement.pair key v) <$> (pair (value maxDepth) <* lineEnd)

/-- A line without a statement. -/
def blankLine : Reader Char Unit := lineBreak <|> comment *> (lineBreak <|> finished)

def statements : Reader Char (List Statement) := do
  discard (perhaps (exactly ['\uFEFF']))
  gap
  let lines ← many ((some <$> statement <|> blankLine *> pure none) <* gap)
  return lines.filterMap id

/-- What has been read of a document: its entries, and the table that takes the next pair. -/
structure Document where
  entries : Entries
  current : List String

namespace Document

def empty : Document := ⟨[], []⟩

def add (d : Document) : Statement → Option Document
  | .table key => (d.entries.addTable key).map fun es => ⟨es, key.parents ++ [key.last]⟩
  | .element key => (d.entries.addElement key).map fun es => ⟨es, key.parents ++ [key.last]⟩
  | .pair key v =>
    (d.entries.update .implied (Entries.addPair key v) d.current .header).map fun es => ⟨es, d.current⟩

def ofStatements? (l : List Statement) : Option Document := l.foldlM add empty

/-- The entries of a document. -/
def read? (text : List Char) : Option Entries := do
  let l ← all? statements text
  return (← ofStatements? l).entries

end Document

end VaultChat.Toml
