import BlockCalc.Tree

/-!
# BlockCalc.Tree.Polish

The prefix form of a tree: every operator before its operands, every node in parentheses, so that
the text shows the tree and nothing else.
-/

namespace BlockCalc
namespace Tree

mutual

/-- The prefix form of a tree. -/
def polish : Tree → String
  | .missing => "(unknown <nil>)"
  | .int v _ => s!"{v.toInt}"
  | .var n _ => n
  | .unary op e _ => s!"({op.symbol} " ++ e.polish ++ ")"
  | .binary op l r _ => s!"({op.symbol} " ++ l.polish ++ " " ++ r.polish ++ ")"
  | .assign n _ e _ => s!"(assign {n} " ++ e.polish ++ ")"
  | .noop _ => "(noop)"
  | .compound body _ => "(compound" ++ polishAll body ++ ")"
  | .program body _ => "(program (compound" ++ polishAll body ++ "))"

/-- The prefix forms of a list of trees, each after a space. -/
def polishAll : List Tree → String
  | [] => ""
  | t :: rest => " " ++ t.polish ++ polishAll rest

end

end Tree
end BlockCalc
