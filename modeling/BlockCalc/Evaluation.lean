import BlockCalc.Arith
import BlockCalc.Env
import BlockCalc.Tree
import BlockCalc.Value

/-!
# BlockCalc.Evaluation

Evaluating trees against an environment, operands from left to right and before their operator.
What was bound before a fault stays bound, so a fault comes with the environment it left behind.
The trees of the grammar fault only by reading an unbound variable or in arithmetic; the other
faults need a tree that no text has.
-/

namespace BlockCalc

inductive EvalError where
  | undefined (name : String) (pos : Position)
  | arithmetic (op : TokenKind) (cause : ArithError) (pos : Position)
  | missingNode
  | statementAsValue (pos : Position)
  | unsupportedUnary (op : TokenKind) (pos : Position)
  | unsupportedBinary (op : TokenKind) (pos : Position)
deriving DecidableEq, Repr, Inhabited

/-- The outcome of evaluating, and the environment afterwards. -/
abbrev Evaluated (α : Type) := Except EvalError α × Env

namespace Evaluated

/-- Goes on with the value of `r`; a fault is passed on. -/
def andThen {α β : Type} (r : Evaluated α) (next : α → Env → Evaluated β) : Evaluated β :=
  match r with
  | (.ok a, env) => next a env
  | (.error e, env) => (.error e, env)

end Evaluated

namespace Tree

/-- The integer of a value, where a statement at `pos` has none. -/
def asInt (pos : Position) (v : Value) (env : Env) : Evaluated Int64 :=
  match v with
  | .int n => (.ok n, env)
  | .unit => (.error (.statementAsValue pos), env)

def applyUnary (op : TokenKind) (pos : Position) (n : Int64) : Except EvalError Value :=
  match op with
  | .plus => .ok (.int n)
  | .minus =>
    match Arith.neg n with
    | .ok r => .ok (.int r)
    | .error e => .error (.arithmetic op e pos)
  | _ => .error (.unsupportedUnary op pos)

/-- The operation a kind stands for, where it stands for one. -/
def operation? (mode : Division) : TokenKind → Option (Int64 → Int64 → Except ArithError Int64)
  | .plus => some Arith.add
  | .minus => some Arith.sub
  | .star => some Arith.mul
  | .slash => some (Arith.div mode)
  | _ => none

def applyBinary (mode : Division) (op : TokenKind) (pos : Position) (a b : Int64) :
    Except EvalError Value :=
  match operation? mode op with
  | none => .error (.unsupportedBinary op pos)
  | some f =>
    match f a b with
    | .ok r => .ok (.int r)
    | .error e => .error (.arithmetic op e pos)

mutual

/-- The value of a tree. -/
def eval (mode : Division) : Tree → Env → Evaluated Value
  | .missing, env => (.error .missingNode, env)
  | .int v _, env => (.ok (.int v), env)
  | .var n p, env =>
    match env.get? n with
    | some v => (.ok (.int v), env)
    | none => (.error (.undefined n p), env)
  | .unary op e p, env =>
    (e.eval mode env).andThen fun v env =>
    (asInt e.pos v env).andThen fun n env => (applyUnary op p n, env)
  | .binary op l r p, env =>
    (l.eval mode env).andThen fun v env =>
    (asInt l.pos v env).andThen fun a env =>
    (r.eval mode env).andThen fun w env =>
    (asInt r.pos w env).andThen fun b env => (applyBinary mode op p a b, env)
  | .assign n _ e _, env =>
    (e.eval mode env).andThen fun v env =>
    (asInt e.pos v env).andThen fun x env => (.ok .unit, env.set n x)
  | .noop _, env => (.ok .unit, env)
  | .compound body _, env => evalAll mode body env
  | .program body _, env => evalAll mode body env

/-- Statements one after another, up to the first fault. -/
def evalAll (mode : Division) : List Tree → Env → Evaluated Value
  | [], env => (.ok .unit, env)
  | t :: rest, env => (t.eval mode env).andThen fun _ env => evalAll mode rest env

end

end Tree
end BlockCalc
