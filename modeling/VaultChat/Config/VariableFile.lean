import VaultChat.Config.Environment

/-!
# Files of variables

A file of variables sets those that the environment does not.  Each line holds a name, an equals sign and a value, in
which quotes may stand and references to other variables.  A value in quotes may go on over several lines.  Reading
ends at the first line that is none of this.
-/

namespace VaultChat

namespace VariableFile

/-! ### Lines -/

/-- Where a line is left when it has been looked at up to some character. -/
inductive LineState where
  | complete
  | blank
  | escaped
  | inWeak
  | inWeakEscaped
  | inStrong
  | inStrongEscaped
  | comment
  deriving DecidableEq

def LineState.next : LineState → Char → LineState
  | .comment, _ => .comment
  | .escaped, _ => .complete
  | .inWeakEscaped, _ => .inWeak
  | .inStrongEscaped, _ => .inStrong
  | .inWeak, c => if c = '\\' then .inWeakEscaped else if c = '"' then .complete else .inWeak
  | .inStrong, c => if c = '\\' then .inStrongEscaped else if c = '\'' then .complete else .inStrong
  | s, c =>
    if c = '#' ∧ s = .blank then .comment
    else if c = '\\' then .escaped
    else if c = '"' then .inWeak
    else if c = '\'' then .inStrong
    else if s = .complete ∧ Text.isBlank c ∧ c ≠ '\n' ∧ c ≠ '\r' then .blank
    else .complete

/-- The line without its end. -/
def chomp (reversed : List Char) : List Char :=
  match reversed with
  | '\n' :: '\r' :: cs | '\n' :: cs | cs => cs.reverse

/-- The lines of a text, from a state and with what has been read of a line, in reverse.  A line that starts with a
number sign is a comment.  The last line is missing if it ends inside quotes. -/
def linesFrom (s : LineState) (read : List Char) : List Char → List (List Char)
  | [] => if read.isEmpty ∨ s ≠ .complete ∧ s ≠ .comment then [] else [chomp read]
  | c :: cs =>
    let s := if c = '#' ∧ read.all Text.isBlank then .comment else s.next c
    let read := if s = .comment ∧ c ≠ '\n' then read else c :: read
    if c = '\n' ∧ (s = .complete ∨ s = .comment) then chomp read :: linesFrom .complete [] cs
    else linesFrom s read cs

/-! ### Values -/

/-- What is known of a value when it has been read up to some character.  The output is in reverse. -/
structure ValueState where
  strong : Bool := false
  weak : Bool := false
  escaped : Bool := false
  ended : Bool := false
  /-- The name of a reference, in reverse, and whether it stands in braces. -/
  reference : Option (List Char × Bool) := none
  output : List Char := []

namespace ValueState

def push (s : ValueState) (c : Char) : ValueState := { s with output := c :: s.output }

/-- Puts the value of the reference into the output. -/
def resolve (env : Environment) (s : ValueState) : ValueState :=
  match s.reference with
  | some (name, _) =>
    { s with reference := none, output := (env.value name.reverse).reverse ++ s.output }
  | none => s

def next (env : Environment) (s : ValueState) (c : Char) : Option ValueState :=
  if s.ended then if c = ' ' ∨ c = '\t' then some s else none
  else if s.escaped then
    let s := { s with escaped := false }
    if ['\\', '\'', '"', '$', ' '].contains c then some (s.push c) else if c = 'n' then some (s.push '\n') else none
  else if s.strong then if c = '\'' then some { s with strong := false } else some (s.push c)
  else
    match s.reference with
    | some (name, braces) =>
      if c.isAlphanum || 0x80 ≤ c.toNat && !Text.isBlank c || braces && c ≠ '\x7d' then
        some { s with reference := some (c :: name, braces) }
      else if braces then some (s.resolve env)
      else if c = '\x7b' ∧ name.isEmpty then some { s with reference := some ([], true) }
      else if c = '$' then some { s.resolve env with reference := some ([], false) }
      else some ((s.resolve env).push c)
    | none =>
      if c = '$' then some { s with reference := some ([], false) }
      else if s.weak then
        if c = '"' then some { s with weak := false }
        else if c = '\\' then some { s with escaped := true }
        else some (s.push c)
      else if c = '\'' then some { s with strong := true }
      else if c = '"' then some { s with weak := true }
      else if c = '\\' then some { s with escaped := true }
      else if c = ' ' ∨ c = '\t' then some { s with ended := true }
      else some (s.push c)

/-- Goes on to the end of a value, which may be a comment behind a blank. -/
def run (env : Environment) (s : ValueState) : List Char → Option ValueState
  | [] => some s
  | c :: cs => if s.ended ∧ c = '#' then some s else (s.next env c).bind fun s => run env s cs

end ValueState

def value? (env : Environment) (cs : List Char) : Option String := do
  let s ← ValueState.run env {} cs
  if s.strong || s.weak || s.reference.any (·.2) then none
  return String.ofList (s.resolve env).output.reverse

/-! ### Variables -/

def key? (cs : List Char) : Option (String × List Char) :=
  let isPart (c : Char) := c.isAlphanum || c == '_' || c == '.'
  if cs.head?.any fun c => c.isAlpha || c == '_' then
    some (String.ofList (cs.takeWhile isPart), Text.trimStart (cs.dropWhile isPart))
  else none

/-- The name in a line and the rest behind the equals sign.  The word `export` may stand in front. -/
def assignment? (cs : List Char) : Option (String × List Char) :=
  match key? cs with
  | some (key, '=' :: rest) => some (key, rest)
  | some ("export", rest) =>
    match key? rest with
    | some (key, '=' :: rest) => some (key, rest)
    | _ => none
  | _ => none

/-- The variable that a line sets, if it sets one. -/
def setting? (env : Environment) (line : List Char) : Option (Option (String × String)) :=
  let line := Text.trimStart line
  if line.isEmpty ∨ line.head? = some '#' then some none
  else do
    let (key, rest) ← assignment? line
    let rest := Text.trimStart rest
    if rest.isEmpty ∨ rest.head? = some '#' then return some (key, "")
    return some (key, ← value? env rest)

/-- The environment with the variables that lines set, as long as it does not set them itself. -/
def load (env : Environment) : List (List Char) → Environment
  | [] => env
  | line :: lines =>
    match setting? env line with
    | none => env
    | some none => load env lines
    | some (some (key, v)) =>
      load (if (env key).isSome then env else fun k => if k = key then some v else env k) lines

end VariableFile

/-- The environment under a file of variables. -/
def Environment.withFile (env : Environment) (text : String) : Environment :=
  let cs := text.toList
  VariableFile.load env (VariableFile.linesFrom .complete [] (if cs.head? = some '\uFEFF' then cs.tail else cs))

end VaultChat
