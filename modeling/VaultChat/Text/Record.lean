import VaultChat.Text.Quoted

/-!
# Records as they are shown to developers

A record is shown by its name and its fields, either on one line or with a line for each field.
-/

namespace VaultChat.Text

/-- What is shown of a field. -/
inductive FieldText where
  | plain (text : String)
  | wrapped (name text : String)

namespace FieldText

/-- A secret is never shown. -/
def hidden : FieldText := .plain (quote "***")

def ofText (s : String) : FieldText := .plain (quote s)

def ofInt (n : Int) : FieldText := .plain (toString n)

def ofOption : Option String → FieldText
  | some s => .wrapped "Some" (quote s)
  | none => .plain "None"

def inLine : FieldText → String
  | .plain text => text
  | .wrapped name text => s!"{name}({text})"

/-- The field over several lines, in a record at the left margin. -/
def inLines : FieldText → String
  | .plain text => text
  | .wrapped name text => s!"{name}(\n        {text},\n    )"

end FieldText

structure Record where
  name : String
  fields : List (String × FieldText)

namespace Record

def inLine (r : Record) : String :=
  let fields := ", ".intercalate (r.fields.map fun (name, f) => s!"{name}: {f.inLine}")
  s!"{r.name} \x7b {fields} \x7d"

def inLines (r : Record) : String :=
  let fields := r.fields.map fun (name, f) => s!"    {name}: {f.inLines},\n"
  s!"{r.name} \x7b\n{String.join fields}\x7d"

end Record

end VaultChat.Text
