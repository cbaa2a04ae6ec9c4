import BlockCalc.Tree

/-!
# BlockCalc.Tree.Dump

The record form of a tree: every node with its fields, one field a line, two more spaces of
indentation a level. Places are left out.
-/

namespace BlockCalc
namespace Tree

def dumpIndent (depth : Nat) : String := String.ofList (List.replicate (2 * depth) ' ')

/-- One line `name: value,` at the given depth. -/
def dumpField (depth : Nat) (name value : String) : String :=
  dumpIndent depth ++ name ++ ": " ++ value ++ ",\n"

/-- A record whose fields have been written, with its closing brace at `depth`. -/
def dumpRecord (name : String) (depth : Nat) (fields : String) : String :=
  "&" ++ name ++ "\x7b\n" ++ fields ++ dumpIndent depth ++ "\x7d"

def dumpVariable (name : String) (depth : Nat) : String :=
  dumpRecord "Variable" depth (dumpField (depth + 1) "Name" (Quoted.string name))

/-- A list between braces, given its items line by line. -/
def dumpList (depth : Nat) (items : String) : String :=
  if items.isEmpty then "[]Node\x7b\x7d" else "[]Node\x7b\n" ++ items ++ dumpIndent depth ++ "\x7d"

mutual

/-- The record form of a tree whose first line is already indented by `depth`. -/
def dumpAt (depth : Nat) : Tree → String
  | .missing => "nil"
  | .int v _ => dumpRecord "IntegerLiteral" depth (dumpField (depth + 1) "Value" s!"{v.toInt}")
  | .var n _ => dumpVariable n depth
  | .unary op e _ =>
    dumpRecord "UnaryExpr" depth
      (dumpField (depth + 1) "Operator" (Quoted.string op.name) ++
        dumpField (depth + 1) "Operand" (e.dumpAt (depth + 1)))
  | .binary op l r _ =>
    dumpRecord "BinaryExpr" depth
      (dumpField (depth + 1) "Operator" (Quoted.string op.name) ++
        dumpField (depth + 1) "Left" (l.dumpAt (depth + 1)) ++
        dumpField (depth + 1) "Right" (r.dumpAt (depth + 1)))
  | .assign n _ e _ =>
    dumpRecord "Assignment" depth
      (dumpField (depth + 1) "Target" (dumpVariable n (depth + 1)) ++
        dumpField (depth + 1) "Value" (e.dumpAt (depth + 1)))
  | .noop _ => "&NoOp\x7b\x7d"
  | .compound body _ =>
    dumpRecord "Compound" depth
      (dumpField (depth + 1) "Statements"
        (dumpList (depth + 1) (dumpItems (depth + 2) body)))
  | .program body _ =>
    dumpRecord "Program" depth
      (dumpField (depth + 1) "Block"
        (dumpRecord "Compound" (depth + 1)
          (dumpField (depth + 2) "Statements"
            (dumpList (depth + 2) (dumpItems (depth + 3) body)))))

/-- The items of a list, one after another. -/
def dumpItems (depth : Nat) : List Tree → String
  | [] => ""
  | t :: rest => dumpIndent depth ++ t.dumpAt depth ++ ",\n" ++ dumpItems depth rest

end

def dump (t : Tree) : String := t.dumpAt 0

end Tree
end BlockCalc
