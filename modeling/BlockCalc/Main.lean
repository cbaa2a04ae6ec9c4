import BlockCalc.Command.Run

/-!
# BlockCalc.Main

The program: it looks at the files a command line names, carries the command out on what it saw,
and writes what came of it. A conversation is held line by line.
-/

namespace BlockCalc
namespace Shell

/-- The place a path names, as far as its words say. -/
def placeOf (cwd : Place) (path : String) : Place :=
  let full := if Path.isAbsolute path then path else cwd.render ++ "/" ++ path
  (Path.splitSlashes (Path.clean full)).filter (· != "")

/-- Looks at everything on the way to a place, and at what is there. -/
def look (tree : FileTree) (place : Place) : IO FileTree := do
  let here ← IO.currentDir
  let mut tree := tree
  for n in List.range (place.length + 1) do
    let p : Place := place.take n
    let path := here / p.render
    if ← path.isDir then
      tree := { tree with directories := p :: tree.directories }
    else if ← path.pathExists then
      tree := tree.put p (Text.ofBytes (← IO.FS.readBinFile path).toList)
  return tree

/-- Looks at the program files below a place. -/
partial def lookBelow (tree : FileTree) (place : Place) : IO FileTree := do
  let path := (← IO.currentDir) / place.render
  if ← path.isDir then
    let mut tree := tree
    for entry in ← path.readDir do
      tree ← lookBelow tree (place ++ [entry.fileName])
    return tree
  else if place.isSource then look tree place
  else return tree

/-- Writes the files in which two trees differ. -/
def apply (before after : FileTree) : IO Unit := do
  let here ← IO.currentDir
  for (p, content) in after.files do
    if before.at? p != some (.file content) then
      IO.FS.writeBinFile (here / p.render) ⟨content.toBytes.toArray⟩

def write (stream : IO.FS.Stream) (t : Text) : IO Unit := do
  stream.write ⟨t.toBytes.toArray⟩
  stream.flush

/-- The time, a number for the run and the length of it, for the journal. -/
def stamp : IO Stamp := do
  let id ← IO.getRandomBytes 8
  let hex := id.toList.flatMap fun b => Quoted.hex 2 b.toNat
  return ⟨s!"{← IO.monoMsNow}", String.ofList hex, "0s"⟩

/-- Reads a line, or the piece of one that there is room for. `bytes` have been read before. -/
partial def readLine (stream : IO.FS.Stream) (bytes : List UInt8) : IO (Option Lines.Piece) := do
  if bytes.contains Lines.newlineByte || decide (Lines.room ≤ bytes.length) then
    return Lines.next bytes
  else
    let more ← stream.read Lines.room.toUSize
    if more.isEmpty then return Lines.next bytes else readLine stream (bytes ++ more.toList)

/-- Holds a conversation from the given state on. The history at its end is returned, with the
reason where the conversation could not go on. -/
partial def converse (j : Journal) (loop : LineLoop) (history : History) (bytes : List UInt8) :
    IO (History × Option Text) := do
  let out ← IO.getStdout
  let err ← IO.getStderr
  let visible := Conversation.promptOk loop.currentPrompt
  if visible then write out loop.currentPrompt
  let piece ← if visible then readLine (← IO.getStdin) bytes else pure none
  let input := match piece with
    | some p => .line (Text.ofBytes p.bytes)
    | none => if visible then .closed else .failed Conversation.promptFault
  let (events, outcome) := loop.step input
  let c := Console.noteAll { j with stamp := ← stamp } ⟨[], [], history⟩ events
  write err c.err
  write out c.out
  match outcome with
  | .again loop => converse j loop c.history ((piece.map (·.rest)).getD [])
  | .finished => return (c.history, none)
  | .failed message => return (c.history, some message)

/-- Holds a conversation and keeps its history. -/
def startConversation (s : Setup) (i : Invocation) (path : String) : IO (Option CommandError) := do
  write (← IO.getStderr) (s.journal.lines [s.record path])
  write (← IO.getStdout) (Text.ofString banner ++ [Text.newline])
  let file? := s.config.historyPath? i.home
  let tree ← match file? with
    | some file => look i.tree (placeOf i.cwd file)
    | none => pure i.tree
  let i := { i with tree := tree }
  let loop := LineLoop.start s.journal.engine s.config.prompt
  let (history, failure) ← converse s.journal loop (i.readHistory file?) []
  apply i.tree (i.keepHistory history file?)
  return failure.map .conversation

/-- Looks at the files a job is about. -/
def lookFor (tree : FileTree) (cwd : Place) : Action → IO FileTree
  | .run path | .tokens path | .ast path _ | .analyze path =>
    if path = "-" then pure tree else look tree (placeOf cwd path)
  | .format targets _ _ => do
    let mut tree := tree
    for target in targets do
      tree ← look tree (placeOf cwd target)
      tree ← lookBelow tree (placeOf cwd target)
    return tree
  | _ => pure tree

def readsStdin : Action → Bool
  | .run path | .tokens path | .ast path _ | .analyze path => path == "-"
  | _ => false

/-- Carries out a job; the reason is returned where it fails. -/
def perform (job : Job) : IO (Option CommandError) := do
  let cwd := (Path.splitSlashes (← IO.currentDir).toString).filter (· != "")
  let stdin ←
    if readsStdin job.action then
      pure (Text.ofBytes (← (← IO.getStdin).readBinToEnd).toList)
    else pure []
  let i : Invocation :=
    ⟨stdin, ⟨[], [cwd]⟩, cwd, (← IO.getEnv "PASCALCALC_CONFIG").getD "",
      (← IO.getEnv "HOME").getD "", ← stamp⟩
  let path := Setup.path job.flags i
  let tree ← if path = "" then pure i.tree else look i.tree (placeOf cwd path)
  let i := { i with tree := ← lookFor tree cwd job.action }
  match job.action, Setup.make job.flags i with
  | .converse false, .ok s => startConversation s i path
  | _, _ =>
    let o := job.run i
    write (← IO.getStderr) o.stderr
    write (← IO.getStdout) o.stdout
    apply i.tree o.tree
    return o.error

end Shell
end BlockCalc

open BlockCalc in
def main (args : List String) : IO UInt32 := do
  let error ← match Job.ofArguments args with
    | .error e => pure (some (.usage e))
    | .ok job => Shell.perform job
  match error with
  | none => return 0
  | some e =>
    Shell.write (← IO.getStderr) (e.message ++ [Text.newline])
    return 1
