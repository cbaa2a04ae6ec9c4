import BlockCalc.History
import BlockCalc.Journal.Line
import BlockCalc.LineLoop
import BlockCalc.Text.Invisible

/-!
# BlockCalc.Conversation

A conversation as those outside see it: what the line loop does is written out, kept in the
history, and noted in the journal if that is shown.
-/

namespace BlockCalc

/-- What is said before the first prompt. -/
def banner : String :=
  "pascalcalc: expressions or BEGIN ... END. programs. Ctrl+D or :quit exits."

/-- What has been written, and the entries to be remembered. -/
structure Console where
  out : Text
  err : Text
  history : History
deriving DecidableEq, Repr, Inhabited

/-- The journal of an engine, if it is shown. -/
structure Journal where
  engine : Engine
  shown : Bool
  stamp : Stamp
deriving DecidableEq, Repr, Inhabited

namespace Journal

/-- The lines of records, if they are shown. -/
def lines (j : Journal) (records : List Record) : Text :=
  if j.shown then records.flatMap (Record.line j.stamp) else []

/-- The lines about running a text. -/
def ofRun (j : Journal) (source : Text) : Text :=
  j.lines ((j.engine.exec source).records source)

end Journal

namespace Console

def note (j : Journal) (c : Console) : LineEvent → Console
  | .prompt t => { c with out := c.out ++ t }
  | .history t => { c with history := c.history.add t }
  | .evaluated entry => { c with err := c.err ++ j.ofRun entry }
  | .out t => { c with out := c.out ++ t }
  | .err t => { c with err := c.err ++ t }

def noteAll (j : Journal) (c : Console) (events : List LineEvent) : Console :=
  events.foldl (note j) c

end Console

namespace Conversation

/-- A prompt can be shown if all of it can be seen. -/
def promptOk (prompt : Text) : Bool := !prompt.any Glyph.isInvisible

def promptFault : Text := Text.ofString "invalid prompt"

/-- Holds a conversation over the given lines, to their end. Where the prompt cannot be shown no
line is read. -/
def run (j : Journal) (prompt : Text) (lines : List Text) (history : History) :
    Console × Option Text :=
  let c : Console := ⟨Text.ofString banner ++ [Text.newline], [], history⟩
  let loop := LineLoop.start j.engine prompt
  if promptOk prompt then
    let t := loop.run (lines.map .line)
    (c.noteAll j t.events, t.failure)
  else
    match loop.step (.failed promptFault) with
    | (events, .failed m) => (c.noteAll j events, some m)
    | (events, _) => (c.noteAll j events, none)

end Conversation
end BlockCalc
