import BlockCalc.Engine

/-!
# BlockCalc.Journal

The records an engine writes about a run: what was run, how far it came and what it left. A run
is known by a number of its own, and evaluation is timed; both are the business of whoever keeps
the journal, and stand in a record as marks to be filled in.
-/

namespace BlockCalc

/-- The value of an entry in a record. -/
inductive Entry where
  | runId
  | elapsed
  | text (t : Text)
deriving DecidableEq, Repr, Inhabited

structure Record where
  message : String
  entries : List (String × Entry)
deriving DecidableEq, Repr, Inhabited

namespace Record

def number (n : Int) : Entry := .text (Text.ofString s!"{n}")

/-- A record of a run: its number and mode come first. -/
def ofRun (mode : Mode) (message : String) (entries : List (String × Entry)) : Record :=
  ⟨message, ("run_id", .runId) :: ("mode", .text (Text.ofString mode.name)) :: entries⟩

end Record

/-- The records of running `source` with the given result, in order. -/
def ExecResult.records (source : Text) (result : ExecResult) : List Record :=
  let parseFailed (r : Rejection) : Record :=
    Record.ofRun result.mode "parse failed" [("error", .text (r.message source))]
  match result with
  | .expression (.ok v) =>
    [Record.ofRun .expression "evaluation finished"
      [("value", Record.number v.toInt), ("elapsed", .elapsed)]]
  | .expression (.error (.rejected r)) => [parseFailed r]
  | .expression (.error (.faulted e)) =>
    [Record.ofRun .expression "evaluation failed"
      [("error", .text (e.message source)), ("elapsed", .elapsed)]]
  | .program (.rejected r) => [parseFailed r]
  | .program (.ran p env fault) =>
    let parsed := Record.ofRun .program "parsed program"
      [("statements", Record.number p.body.toList.length)]
    let bindings := ("bindings", Record.number env.size)
    match fault with
    | none =>
      [parsed, Record.ofRun .program "evaluation finished" [bindings, ("elapsed", .elapsed)]]
    | some e =>
      [parsed, Record.ofRun .program "evaluation failed"
        [("error", .text (e.message source)), bindings, ("elapsed", .elapsed)]]

end BlockCalc
