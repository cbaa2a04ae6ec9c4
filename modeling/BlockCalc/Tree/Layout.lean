import BlockCalc.Tree.Polish

/-!
# BlockCalc.Tree.Layout

Canonical source. Expressions are written with the fewest parentheses that keep the tree, blocks
with one statement a line, two more spaces of indentation than the block around them. An empty
statement at the end of a block is left out, since the `END` stands for it.
-/

namespace BlockCalc
namespace Tree

/-- The operator `op` binds more loosely than one of precedence `prec`. Kinds that are no operator
bind loosest. -/
def bindsLooser (op : TokenKind) (prec : Option Nat) : Bool :=
  match op.precedence?, prec with
  | none, none => false
  | none, some _ => true
  | some _, none => false
  | some a, some b => a < b

def parenthesise (s : String) : String := "(" ++ s ++ ")"

/-- An expression as it is written. A left operand keeps its parentheses when its operator binds
more loosely than the one above, a right operand also when it binds as loosely. Trees that are no
expression are shown in prefix form. -/
def formula : Tree → String
  | .int v _ => s!"{v.toInt}"
  | .var n _ => n
  | .unary op e _ =>
    match e with
    | .binary _ _ _ _ => op.symbol ++ parenthesise e.formula
    | .unary _ _ _ => op.symbol ++ " " ++ e.formula
    | _ => op.symbol ++ e.formula
  | .binary op l r _ =>
    let left :=
      match l with
      | .binary child _ _ _ =>
        if bindsLooser child op.precedence? then parenthesise l.formula else l.formula
      | _ => l.formula
    let right :=
      match r with
      | .binary child _ _ _ =>
        if bindsLooser op child.precedence? then r.formula else parenthesise r.formula
      | _ => r.formula
    left ++ " " ++ op.symbol ++ " " ++ right
  | t => t.polish

def isNoop : Tree → Bool
  | .noop _ => true
  | _ => false

def indent (depth : Nat) : String := String.ofList (List.replicate (2 * depth) ' ')

/-- A block at indentation `depth` around the lines of its statements. -/
def blockText (depth : Nat) (inner : String) : String :=
  "BEGIN\n" ++ inner ++ indent depth ++ "END"

mutual

/-- A statement that stands at indentation `depth`. -/
def layoutStatement : Tree → Nat → String
  | .compound body _, depth => blockText depth (layoutLines body depth)
  | .assign n _ e _, _ => n ++ " := " ++ e.formula
  | .noop _, _ => ""
  | t, _ => t.formula
termination_by structural t => t

/-- The statements of a block at indentation `depth`, one a line; all but the last end in a
semicolon. -/
def layoutLines : List Tree → Nat → String
  | [], _ => ""
  | s :: rest, depth =>
    let text := indent (depth + 1) ++ s.layoutStatement (depth + 1)
    if rest.isEmpty then if s.isNoop then "" else text ++ "\n"
    else text ++ ";\n" ++ layoutLines rest depth
termination_by structural ts => ts

end

/-- The canonical source of a program with the given statements. -/
def layoutProgram (body : List Tree) : String :=
  blockText 0 (layoutLines body 0) ++ ".\n"

end Tree

/-- The canonical source of a program. -/
def Program.layout (p : Program) : String := Tree.layoutProgram p.body.toTrees

end BlockCalc
