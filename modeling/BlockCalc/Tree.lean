import BlockCalc.Program
import BlockCalc.Token

/-!
# BlockCalc.Tree

Trees of any shape, built by hand or read from a text. A part may be missing, an operator may be
any kind, and statements and expressions may stand in each other's place. Printing and evaluation
are defined on all of them; `Program.toTree` and `Expr.toTree` give the trees of the grammar.
-/

namespace BlockCalc

inductive Tree where
  | missing
  | int (value : Int64) (pos : Position)
  | var (name : String) (pos : Position)
  | unary (op : TokenKind) (operand : Tree) (pos : Position)
  | binary (op : TokenKind) (left right : Tree) (pos : Position)
  | assign (name : String) (namePos : Position) (value : Tree) (pos : Position)
  | noop (pos : Position)
  | compound (body : List Tree) (pos : Position)
  | program (body : List Tree) (pos : Position)
deriving Inhabited

namespace Tree

/-- The place a node is reported at. -/
def pos : Tree → Position
  | .missing => ⟨0, 0⟩
  | .int _ p => p
  | .var _ p => p
  | .unary _ _ p => p
  | .binary _ _ _ p => p
  | .assign _ _ _ p => p
  | .noop p => p
  | .compound _ p => p
  | .program _ p => p

end Tree

def Sign.kind : Sign → TokenKind
  | .plus => .plus
  | .minus => .minus

def BinaryOp.kind : BinaryOp → TokenKind
  | .add => .plus
  | .sub => .minus
  | .mul => .star
  | .div => .slash

def Expr.toTree : Expr → Tree
  | .int v p => .int v p
  | .var n p => .var n p
  | .unary s e p => .unary s.kind e.toTree p
  | .binary op l r p => .binary op.kind l.toTree r.toTree p

mutual

def Stmt.toTree : Stmt → Tree
  | .block p body => .compound body.toTrees p
  | .assign n np e p => .assign n np e.toTree p
  | .empty p => .noop p

def Stmts.toTrees : Stmts → List Tree
  | .one s => [s.toTree]
  | .cons s rest => s.toTree :: rest.toTrees

end

def Program.toTree (p : Program) : Tree := .program p.body.toTrees p.pos

/-! ## Listing the nodes -/

namespace Tree

def nodeText (text : String) (p : Position) : String := s!"{text}@{p.render}"

mutual

/-- The nodes from the root down, each before its parts, with their places. The target of an
assignment is a node of its own, and so is the block of a program. -/
def nodes : Tree → List String
  | .missing => []
  | .int v p => [nodeText s!"int {v.toInt}" p]
  | .var n p => [nodeText s!"var {n}" p]
  | .unary op e p => nodeText s!"unary {op.name}" p :: e.nodes
  | .binary op l r p => nodeText s!"binary {op.name}" p :: (l.nodes ++ r.nodes)
  | .assign n np e p => nodeText "assign" p :: nodeText s!"var {n}" np :: e.nodes
  | .noop p => [nodeText "noop" p]
  | .compound body p => nodeText s!"compound/{body.length}" p :: nodesOf body
  | .program body p =>
    nodeText "program" p :: nodeText s!"compound/{body.length}" p :: nodesOf body

def nodesOf : List Tree → List String
  | [] => []
  | t :: rest => t.nodes ++ nodesOf rest

end

end Tree
end BlockCalc
