import BlockCalc.Diagnostic
import BlockCalc.Tree.Layout

/-!
# BlockCalc.Engine

An engine is a way to run texts: how deep they may nest, and how quotients are rounded. It keeps
nothing between runs. A text whose first token is `BEGIN` is a program; any other is an
expression.
-/

namespace BlockCalc

structure Engine where
  maxDepth : Nat
  division : Division
deriving DecidableEq, Repr, Inhabited

/-- What an engine is asked for: a limit and the name of a way to divide, either of them left to
the default. -/
structure EngineOptions where
  maxDepth : Int
  division : Text
deriving DecidableEq, Repr, Inhabited

inductive Mode where
  | expression
  | program
deriving DecidableEq, Repr, Inhabited

def Mode.name : Mode → String
  | .expression => "expression"
  | .program => "program"

/-- There is no way to divide of that name. -/
structure UnknownDivision where
  name : Text
deriving DecidableEq, Repr, Inhabited

def UnknownDivision.message (e : UnknownDivision) : String :=
  s!"unknown division mode {Quoted.text e.name}"

namespace Engine

/-- The depth that is allowed unless another is asked for. -/
def defaultDepth : Nat := 256

/-- The engine with the options asked for; a limit that is not positive is left to the default. -/
def ofOptions (o : EngineOptions) : Except UnknownDivision Engine :=
  let depth := if o.maxDepth ≤ 0 then defaultDepth else o.maxDepth.toNat
  let named (d : Division) : Bool := o.division == Text.ofString d.name
  if o.division.isEmpty || named .truncate then .ok ⟨depth, .truncate⟩
  else if named .floor then .ok ⟨depth, .floor⟩
  else .error ⟨o.division⟩

end Engine

/-- What a program run leaves. A text that is not accepted leaves nothing; otherwise there is an
environment, also after a fault. -/
inductive RunResult where
  | rejected (r : Rejection)
  | ran (program : Program) (env : Env) (fault : Option EvalError)

namespace RunResult

def env? : RunResult → Option Env
  | .rejected _ => none
  | .ran _ env _ => some env

def failure? : RunResult → Option Failure
  | .rejected r => some (.rejected r)
  | .ran _ _ (some e) => some (.faulted e)
  | .ran _ _ none => none

end RunResult

/-- What running a text of either kind leaves. -/
inductive ExecResult where
  | expression (r : Except Failure Int64)
  | program (r : RunResult)

namespace ExecResult

def mode : ExecResult → Mode
  | .expression _ => .expression
  | .program _ => .program

def value : ExecResult → Int64
  | .expression (.ok v) => v
  | _ => 0

def env? : ExecResult → Option Env
  | .expression _ => none
  | .program r => r.env?

def failure? : ExecResult → Option Failure
  | .expression (.ok _) => none
  | .expression (.error f) => some f
  | .program r => r.failure?

end ExecResult

/-- A text is a program when its first token is `BEGIN`. -/
def detectMode (t : Text) : Mode :=
  match (Cursor.ofText t).step with
  | .token ⟨.beginWord, _⟩ _ => .program
  | _ => .expression

namespace Engine

def parse (e : Engine) (t : Text) : Except Rejection Program := Program.parse e.maxDepth t

def parseExpression (e : Engine) (t : Text) : Except Rejection Expr := Expr.parse e.maxDepth t

/-- The value of an expression, in an empty environment. -/
def eval (e : Engine) (t : Text) : Except Failure Int64 :=
  match e.parseExpression t with
  | .error r => .error (.rejected r)
  | .ok expr =>
    let tree := expr.toTree
    match (tree.eval e.division Env.empty).andThen (Tree.asInt tree.pos) with
    | (.ok v, _) => .ok v
    | (.error f, _) => .error (.faulted f)

/-- Runs a program from an empty environment. -/
def run (e : Engine) (t : Text) : RunResult :=
  match e.parse t with
  | .error r => .rejected r
  | .ok p =>
    match p.toTree.eval e.division Env.empty with
    | (.ok _, env) => .ran p env none
    | (.error f, env) => .ran p env (some f)

/-- Runs a text as what it is. -/
def exec (e : Engine) (t : Text) : ExecResult :=
  match detectMode t with
  | .program => .program (e.run t)
  | .expression => .expression (e.eval t)

end Engine

/-- The canonical source of a program text, read with the default depth. -/
def formatSource (t : Text) : Except Rejection Text :=
  match Program.parse Engine.defaultDepth t with
  | .error r => .error r
  | .ok p => .ok (Text.ofString p.layout)

end BlockCalc
