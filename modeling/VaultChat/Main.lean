import VaultChat.Console.Program
import VaultChat.Engine.Basic

/-!
# The command line

This layer reads the environment, the files and the lines, and prints what the library answers.  It has no network, so
that the vault never answers.
-/

open VaultChat

/-- The whole contents of a file, if it can be read. -/
def contents? (path : String) : IO (Option ByteArray) := do
  try return some (← IO.FS.readBinFile path) catch _ => return none

/-- The environment of the process, under the file of variables in the working directory. -/
def processEnvironment : IO Environment := do
  let text := ((← contents? "/proc/self/environ").bind (String.fromUTF8? ·)).getD ""
  let env : Environment := fun key =>
    (text.splitOn "\x00").findSome? fun entry =>
      if (key ++ "=").isPrefixOf entry then some (String.ofList (entry.toList.drop (key.length + 1))) else none
  let file := ((← contents? ".env").bind (String.fromUTF8? ·)).getD ""
  return env.withFile file

/-- A word of random bytes. -/
def randomWord : IO UInt64 := do
  return (← IO.getRandomBytes 8).toList.foldl (fun n b => n * 256 + b.toUInt64) 0

/-- Choices from given words and, should those run out, from words that continue them. -/
def choicesFrom (given : Array UInt64) (_ extra : Nat) : Password.Choices extra :=
  match Password.draw extra (Password.prefixed given (Password.mixedWords (given.getD 0 0))) 100000 with
  | some d => d.choices
  | none => .trivial extra

partial def converse (gateway : Gateway) (user : UserId) (input : IO.FS.Stream)
    (engine : Engine Session.Storage Unit) : IO Unit := do
  IO.print s!"[{user.username}] > "
  (← IO.getStdout).flush
  let line ← input.getLine
  let text := String.ofList (Text.trim line.toList)
  if line.isEmpty then return
  else if text.isEmpty then converse gateway user input engine
  else
    match Console.Action.ofLine text with
    | .exit => return
    | .clearScreen =>
      IO.print "\x1b[2J\x1b[3J\x1b[H"
      converse gateway user input engine
    | .forward =>
      let words ← (List.replicate 512 ()).mapM fun _ => randomWord
      let env : Engine.Surroundings Session.Storage Unit :=
        ⟨.ofNanos (← IO.monoNanosNow), Session.storageCache, gateway.client.service .silent,
          choicesFrom words.toArray⟩
      let (reply, engine) := engine.handle gateway.settings env user (.ofLine text)
      IO.println ""
      for m in reply do IO.println (Console.render m)
      IO.println ""
      converse gateway user input engine

def finish (o : Console.Outcome) : IO UInt32 := do
  for line in o.output do IO.println line
  for line in o.errors do IO.eprintln line
  return o.status.toUInt32

def main (args : List String) : IO UInt32 := do
  match Console.start args (← processEnvironment) (← contents? Config.fileName) .empty with
  | .ended o => finish o
  | .bot output _ _ => finish ⟨1, output, Console.errorLines ["the chat service cannot be reached"]⟩
  | .console output gateway user =>
    let input ← IO.getStdin
    if !(← input.isTty) then finish (Console.withoutTerminal output)
    else
      for line in output do IO.println line
      converse gateway user input (.start ⟨gateway.sessions, (), 0⟩)
      finish ⟨0, Console.farewellLines, []⟩
