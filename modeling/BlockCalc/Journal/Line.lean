import BlockCalc.Journal
import BlockCalc.Text.Blank

/-!
# BlockCalc.Journal.Line

Records as lines of text: the time, the level, the message and the entries, each with its name in
front. A value stands between quotes when it is empty or could be taken for more than one word.
-/

namespace BlockCalc

/-- What only the keeper of a journal knows about a run. -/
structure Stamp where
  time : String
  runId : String
  elapsed : String
deriving DecidableEq, Repr, Inhabited

/-- Whether a glyph makes quotes necessary. -/
def Glyph.needsQuotes (g : Glyph) : Bool :=
  if g.code < 0x80 then g.code ≤ 0x20 || g.code == 0x22 || g.code == 0x3D
  else g.code == 0xFFFD || g.isBlank || !isPrintable g.shown

/-- A value as it is written in a line. -/
def Text.logged (t : Text) : Text :=
  if t.isEmpty || t.any Glyph.needsQuotes then Text.ofString (Quoted.text t) else t

namespace Record

def value (stamp : Stamp) : Entry → Text
  | .runId => Text.ofString stamp.runId
  | .elapsed => Text.ofString stamp.elapsed
  | .text t => t.logged

/-- A record as one line. All records are for those who look for faults. -/
def line (stamp : Stamp) (r : Record) : Text :=
  Text.ofString s!"time={stamp.time} level=DEBUG msg=" ++ (Text.ofString r.message).logged ++
    r.entries.flatMap (fun e => Text.ofString s!" {e.1}=" ++ value stamp e.2) ++ [Text.newline]

end Record
end BlockCalc
