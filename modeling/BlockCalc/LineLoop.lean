import BlockCalc.Session
import BlockCalc.Text.Blank
import BlockCalc.Text.Panel

/-!
# BlockCalc.LineLoop

The line-by-line conversation: a prompt, a line, an answer. Lines are collected as long as they
make an unfinished program. An entry that begins with a colon is a command to the loop itself.

The loop is a machine that is fed what the reader returns; `LineLoop.run` feeds it a whole list.
-/

namespace BlockCalc

/-- What the reader returns to a prompt. -/
inductive LineInput where
  | line (t : Text)
  | closed
  | aborted
  | failed (message : Text)
deriving DecidableEq, Repr, Inhabited

/-- What the loop does: it asks for a line, records an entry, runs one, and answers. -/
inductive LineEvent where
  | prompt (t : Text)
  | history (t : Text)
  | evaluated (entry : Text)
  | out (t : Text)
  | err (t : Text)
deriving DecidableEq, Repr, Inhabited

structure LineLoop where
  session : Session
  prompt : Text
  pending : Text
deriving DecidableEq, Inhabited

/-- How the loop goes on. -/
inductive LineOutcome where
  | again (l : LineLoop)
  | finished
  | failed (message : Text)
deriving DecidableEq, Inhabited

namespace LineLoop

def start (engine : Engine) (prompt : Text) : LineLoop := ⟨Session.start engine, prompt, []⟩

/-- The prompt for the next line. -/
def currentPrompt (l : LineLoop) : Text :=
  if l.pending.isEmpty then l.prompt else Text.ofString continuationPrompt

def outLine (t : Text) : LineEvent := .out (t ++ [Text.newline])

def errLine (t : Text) : LineEvent := .err (t ++ [Text.newline])

def helpText : String :=
  ":vars   show variables of the last program\n:reset  forget them\n:quit   exit"

/-- Carries out a command of the loop. -/
def command (l : LineLoop) (entry : Text) : List LineEvent × LineOutcome :=
  match (Text.words entry).head?.map Text.toString with
  | some ":quit" | some ":q" => ([], .finished)
  | some ":vars" | some ":v" =>
    let shown :=
      match l.session.lastEnv with
      | some env => if env.size = 0 then "no variables defined" else env.render "\n"
      | none => "no variables defined"
    ([outLine (Text.ofString shown)], .again l)
  | some ":reset" | some ":r" =>
    ([outLine (Text.ofString "environment reset")], .again { l with session := l.session.reset })
  | some ":help" | some ":h" => ([outLine (Text.ofString helpText)], .again l)
  | _ => ([errLine (Text.ofString "unknown command: " ++ entry)], .again l)

/-- Deals with an entry that is complete. Blank entries are passed over; the others are recorded
and answered. -/
def submit (l : LineLoop) (source : Text) : List LineEvent × LineOutcome :=
  let l := { l with pending := [] }
  let entry := Text.trim source
  if entry.isEmpty then ([], .again l)
  else
    let recorded := LineEvent.history (Text.oneLine entry)
    if entry.head? = some (.char ':') then
      let (events, outcome) := l.command entry
      (recorded :: events, outcome)
    else
      let (reply, session) := l.session.evaluate entry
      let shown := Text.display reply.text
      ([recorded, .evaluated entry, if reply.isError then errLine shown else outLine shown],
        .again { l with session := session })

/-- One answer of the reader. The end of the input completes what is pending. -/
def step (l : LineLoop) : LineInput → List LineEvent × LineOutcome
  | .closed =>
    if l.pending.isEmpty then ([.out [Text.newline]], .finished) else l.submit l.pending
  | .aborted => ([], .again { l with pending := [] })
  | .failed message => ([], .failed (Text.ofString "read input: " ++ message))
  | .line t =>
    let source := if l.pending.isEmpty then t else l.pending ++ [Text.newline] ++ t
    if l.session.engine.isIncomplete source then ([], .again { l with pending := source })
    else l.submit source

/-- What a conversation leaves behind. -/
structure Transcript where
  events : List LineEvent
  unread : Nat
  failure : Option Text
deriving DecidableEq, Repr, Inhabited

/-- The events after the last input, when the reader returns the end of the input for ever. -/
def closing (l : LineLoop) : List LineEvent :=
  match l.step .closed with
  | (events, .again l') =>
    .prompt l.currentPrompt :: events ++ .prompt l'.currentPrompt :: (l'.step .closed).1
  | (events, _) => .prompt l.currentPrompt :: events

/-- Feeds a list of inputs to the loop, and then the end of the input. -/
def run : LineLoop → List LineInput → Transcript
  | l, [] => ⟨l.closing, 0, none⟩
  | l, i :: rest =>
    match l.step i with
    | (events, .again l') =>
      let t := run l' rest
      { t with events := .prompt l.currentPrompt :: events ++ t.events }
    | (events, .finished) => ⟨.prompt l.currentPrompt :: events, rest.length, none⟩
    | (events, .failed m) => ⟨.prompt l.currentPrompt :: events, rest.length, some m⟩

end LineLoop
end BlockCalc
