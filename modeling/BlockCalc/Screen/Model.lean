import BlockCalc.Screen.Field
import BlockCalc.Session

/-!
# BlockCalc.Screen.Model

The full-screen conversation as a machine: the state of the screen, and what every key does to it.
Lines are collected while they make an unfinished program, entries can be recalled, and the tab
key completes the last word.
-/

namespace BlockCalc

/-- An entry that was answered, or an answer without an entry. -/
structure Exchange where
  input : Text
  output : Text
  isError : Bool
deriving DecidableEq, Repr, Inhabited

structure Screen where
  field : Field
  session : Session
  exchanges : List Exchange
  /-- The entries that can be recalled, oldest first. -/
  recallable : List Text
  /-- The entry that is recalled, where one is. -/
  recalled : Option Nat
  pending : List Text
  prompt : Text
  width : Int
  height : Int
  showHelp : Bool
  showVars : Bool
  quitting : Bool
  sized : Bool
deriving DecidableEq, Inhabited

/-- The keys the screen knows. Of those that it leaves to the field, the ones that work by words are
left out (`Field.Edit`). -/
inductive Key where
  | enter
  | up
  | down
  | tab
  | quit
  | clear
  | vars
  | help
  | edit (e : Field.Edit)
  | typed (g : Glyph)
deriving DecidableEq, Repr, Inhabited

/-- What the screen asks of whoever runs it. -/
inductive Request where
  | nothing
  | blink
  | quit
deriving DecidableEq, Repr, Inhabited

namespace Screen

def start (engine : Engine) (prompt : Text) : Screen :=
  let prompt := if prompt.isEmpty then Text.ofString defaultPrompt else prompt
  { field := Field.ofPrompt prompt "expression or BEGIN ... END."
    session := Session.start engine
    exchanges := []
    recallable := []
    recalled := none
    pending := []
    prompt := prompt
    width := 0
    height := 0
    showHelp := false
    showVars := false
    quitting := false
    sized := false }

def value (s : Screen) : Text := s.field.value.map .char

def addExchange (s : Screen) (e : Exchange) : Screen :=
  { s with exchanges := s.exchanges ++ [e] }

def setValue (s : Screen) (t : Text) : Screen := { s with field := s.field.set t }

def setPrompt (s : Screen) (t : Text) : Screen := { s with field := { s.field with prompt := t } }

/-- The window has a new size; the field leaves ten cells of it to the prompt. -/
def resize (s : Screen) (width height : Int) : Screen :=
  { s with
    width := width
    height := height
    field := { s.field with width := width - 10 }
    sized := true }

/-- Shows the recallable entry with the given number, with the cursor at its end. -/
def recallEntry (s : Screen) (n : Nat) : Screen :=
  { s with
    recalled := some n
    field := (s.field.set (s.recallable.getD n [])).moveToEnd }

/-- Recalls the entry before the one that is recalled, or the last. -/
def recallPrevious (s : Screen) : Screen :=
  match s.recallable.length, s.recalled with
  | 0, _ => s
  | n + 1, none => s.recallEntry n
  | _ + 1, some i => s.recallEntry (i - 1)

/-- Recalls the entry after the one that is recalled; after the last comes the empty line. -/
def recallNext (s : Screen) : Screen :=
  match s.recalled with
  | none => s
  | some i =>
    if i + 1 < s.recallable.length then s.recallEntry (i + 1)
    else { s with recalled := none, field := (s.field.set []).moveToEnd }

/-! ## Entries -/

/-- Carries out a command of the screen. -/
def command (s : Screen) (entry : Text) : Screen × Request :=
  let name := (Text.words entry).headD []
  match Text.toString name with
  | ":help" | ":h" => ({ s with showHelp := !s.showHelp }, .nothing)
  | ":clear" | ":c" => ({ s with exchanges := [] }, .nothing)
  | ":vars" | ":v" => ({ s with showVars := !s.showVars }, .nothing)
  | ":reset" | ":r" =>
    ({ s with session := s.session.reset }.addExchange
      ⟨entry, Text.ofString "environment reset", false⟩, .nothing)
  | ":quit" | ":q" => ({ s with quitting := true }, .quit)
  | _ => (s.addExchange ⟨entry, Text.ofString "unknown command: " ++ name, true⟩, .nothing)

/-- Runs an entry and makes it recallable. -/
def evaluate (s : Screen) (entry : Text) : Screen :=
  let (reply, session) := s.session.evaluate entry
  { s with
    session := session
    exchanges := s.exchanges ++ [⟨Text.oneLine entry, reply.text, reply.isError⟩]
    recallable := s.recallable ++ [Text.oneLine entry] }

/-- Takes the line in the field. It is a command at the beginning of an entry, and otherwise joins
the lines that are pending. -/
def submit (s : Screen) : Screen × Request :=
  let line := Text.trim s.value
  let s := { s.setValue [] with recalled := none }
  if s.pending.isEmpty ∧ line.isEmpty then (s, .nothing)
  else if s.pending.isEmpty ∧ line.head? = some (.char ':') then s.command line
  else
    let lines := s.pending ++ [line]
    let entry := Text.join [Text.newline] lines
    if s.session.engine.isIncomplete entry then
      ({ s with pending := lines }.setPrompt (Text.ofString continuationPrompt), .nothing)
    else ((({ s with pending := [] }.setPrompt s.prompt).evaluate entry), .nothing)

/-! ## Completion -/

/-- The keywords and variables that begin with `word`. -/
def completions (s : Screen) (word : Text) : List Text :=
  (("BEGIN" :: "END" :: s.session.names).map Text.ofString).filter word.isPrefixOf

/-- A text without the ending `tail`, where it has it. -/
def dropEnding (tail t : Text) : Text :=
  if tail.isSuffixOf t then t.take (t.length - tail.length) else t

/-- Completes the last word of the field where there is one way to, and lists the ways where there
are several. -/
def complete (s : Screen) : Screen :=
  match (Text.words s.value).getLast? with
  | none => s
  | some word =>
    if s.value.getLast? = some (.char ' ') then s
    else
      match s.completions word with
      | [] => s
      | [only] =>
        { s with field := (s.field.set (dropEnding word s.value ++ only)).moveToEnd }
      | several =>
        s.addExchange ⟨[], Text.ofString "completions: " ++ Text.join (Text.ofString ", ") several,
          false⟩

/-! ## Keys -/

/-- What editing asks for: a cursor that has moved blinks anew. -/
def withField (s : Screen) (f : Field) : Screen × Request :=
  ({ s with field := f }, if f.cursor = s.field.cursor then .nothing else .blink)

/-- What a key does. -/
def press (s : Screen) : Key → Screen × Request
  | .quit => ({ s with quitting := true }, .quit)
  | .clear => ({ s with exchanges := [] }, .nothing)
  | .vars => ({ s with showVars := !s.showVars }, .nothing)
  | .help => ({ s with showHelp := !s.showHelp }, .nothing)
  | .up => (s.recallPrevious, .nothing)
  | .down => (s.recallNext, .nothing)
  | .tab => (s.complete, .nothing)
  | .enter => s.submit
  | .edit e => s.withField (s.field.edit e)
  | .typed g => s.withField (s.field.insert [g])

end Screen
end BlockCalc
