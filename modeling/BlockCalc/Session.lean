import BlockCalc.Engine

/-!
# BlockCalc.Session

A session answers one entry after another. Every entry is a run of its own, in an empty
environment; what the last program left is kept to be shown.
-/

namespace BlockCalc

structure Session where
  engine : Engine
  lastEnv : Option Env
deriving DecidableEq, Inhabited

/-- What is answered to an entry. -/
structure Reply where
  text : Text
  isError : Bool
deriving DecidableEq, Repr, Inhabited

/-- More text could still make a program of `t`: it begins as one, and the reader is stopped by
nothing but the end of the text. -/
def Engine.isIncomplete (e : Engine) (t : Text) : Bool :=
  match detectMode t, e.parse t with
  | .program, .error (.parse ⟨_, none, .expected _⟩) => true
  | _, _ => false

namespace Session

def start (engine : Engine) : Session := ⟨engine, none⟩

/-- How a successful result is told. -/
def answer : ExecResult → Text
  | .program (.ran _ env none) =>
    if env.size = 0 then Text.ofString "no variables assigned" else Text.ofString (env.render ", ")
  | r => Text.ofString s!"{r.value.toInt}"

/-- Runs an entry. The bindings of a program are kept also when it faults. -/
def evaluate (s : Session) (entry : Text) : Reply × Session :=
  let r := s.engine.exec entry
  let reply : Reply :=
    match r.failure? with
    | some f => ⟨f.message entry, true⟩
    | none => ⟨answer r, false⟩
  match r.env? with
  | some env => (reply, { s with lastEnv := some env })
  | none => (reply, s)

def reset (s : Session) : Session := { s with lastEnv := none }

/-- The variables of the last program. -/
def names (s : Session) : List String :=
  match s.lastEnv with
  | some env => env.names
  | none => []

/-- The bindings of the last program, where one has run. -/
def bindings? (s : Session) (sep : String) : Option String := s.lastEnv.map (·.render sep)

end Session

/-- An entry as histories keep it: on one line. -/
def Text.oneLine (t : Text) : Text := t.map fun g => if g = newline then .char ' ' else g

/-- The prompt for the lines after the first of an unfinished program. -/
def continuationPrompt : String := "...   "

/-- The prompt unless another is asked for. -/
def defaultPrompt : String := "calc> "

end BlockCalc
