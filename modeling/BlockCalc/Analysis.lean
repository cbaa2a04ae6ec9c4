import BlockCalc.Program

/-!
# BlockCalc.Analysis

What can be said of a program without running it. A run is a sequence of reads and writes of
variables. A read with no write of the name before it fails; a write is in vain when the next
event on its name is another write.
-/

namespace BlockCalc

inductive Event where
  | read (name : String) (pos : Position)
  | write (name : String) (pos : Position)
deriving DecidableEq, Repr, Inhabited

/-- The variables an expression reads, in the order of reading. -/
def Expr.reads : Expr → List Event
  | .int _ _ => []
  | .var n p => [.read n p]
  | .unary _ e _ => e.reads
  | .binary _ l r _ => l.reads ++ r.reads

mutual

def Stmt.events : Stmt → List Event
  | .block _ body => body.events
  | .assign n np e _ => e.reads ++ [.write n np]
  | .empty _ => []

def Stmts.events : Stmts → List Event
  | .one s => s.events
  | .cons s rest => s.events ++ rest.events

end

/-- What a program reads and writes, in the order of running it. -/
def Program.events (p : Program) : List Event := p.body.events

inductive Complaint where
  | readBeforeAssigned
  | overwrittenUnread
deriving DecidableEq, Repr, Inhabited

structure Warning where
  pos : Position
  name : String
  complaint : Complaint
deriving DecidableEq, Repr, Inhabited

namespace Warning

def message (w : Warning) : String :=
  match w.complaint with
  | .readBeforeAssigned => s!"{w.name} is read before it is assigned"
  | .overwrittenUnread => s!"value assigned to {w.name} is overwritten before it is read"

def render (w : Warning) : String := s!"{w.pos.render}: {w.message}"

end Warning

/-- What is known along a run: the names written so far, and the last write of each name that has
not been read since. -/
structure Tracker where
  written : List String
  unread : List (String × Position)
deriving DecidableEq, Repr, Inhabited

namespace Tracker

def start : Tracker := ⟨[], []⟩

/-- The tracker after an event, and the warning the event gives rise to. -/
def step (k : Tracker) : Event → Tracker × Option Warning
  | .read n p =>
    (⟨k.written, k.unread.filter (·.1 != n)⟩,
      if k.written.contains n then none else some ⟨p, n, .readBeforeAssigned⟩)
  | .write n p =>
    (⟨n :: k.written, (n, p) :: k.unread.filter (·.1 != n)⟩,
      match k.unread.lookup n with
      | some q => some ⟨q, n, .overwrittenUnread⟩
      | none => none)

/-- The warnings of a sequence of events, in the order in which they come up. -/
def warnings : Tracker → List Event → List Warning
  | _, [] => []
  | k, e :: rest =>
    match k.step e with
    | (k, some w) => w :: warnings k rest
    | (k, none) => warnings k rest

end Tracker

/-- The warnings of a program, by the place they are about. -/
def Program.warnings (p : Program) : List Warning :=
  (Tracker.start.warnings p.events).mergeSort fun v w => v.pos.le w.pos

end BlockCalc
