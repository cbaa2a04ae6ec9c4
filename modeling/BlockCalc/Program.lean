import BlockCalc.Position

/-!
# BlockCalc.Program

Programs and expressions as the grammar makes them. Every node keeps the place it is reported at:
an operator its sign, an assignment its `:=`, a block its `BEGIN`, an empty statement the token
that ends it.
-/

namespace BlockCalc

inductive Sign where
  | plus
  | minus
deriving DecidableEq, Repr, Inhabited

inductive BinaryOp where
  | add
  | sub
  | mul
  | div
deriving DecidableEq, Repr, Inhabited

inductive Expr where
  | int (value : Int64) (pos : Position)
  | var (name : String) (pos : Position)
  | unary (sign : Sign) (operand : Expr) (pos : Position)
  | binary (op : BinaryOp) (left right : Expr) (pos : Position)
deriving DecidableEq, Repr, Inhabited

mutual

inductive Stmt where
  | block (pos : Position) (body : Stmts)
  | assign (name : String) (namePos : Position) (value : Expr) (pos : Position)
  | empty (pos : Position)

/-- The statements of a block, of which there is at least one. -/
inductive Stmts where
  | one (s : Stmt)
  | cons (s : Stmt) (rest : Stmts)

end

deriving instance Repr for Stmt
deriving instance Repr for Stmts

def Stmts.toList : Stmts → List Stmt
  | .one s => [s]
  | .cons s rest => s :: rest.toList

/-- A block followed by a dot. -/
structure Program where
  pos : Position
  body : Stmts
deriving Repr

end BlockCalc
