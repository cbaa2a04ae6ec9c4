import BlockCalc.Program.Parser

/-!
# BlockCalc.Proofs.Grammar

The grammar as a relation, apart from any way of reading it:

    program    = compound "."
    compound   = "BEGIN" statement { ";" statement } "END"
    statement  = compound | name ":=" expression | nothing
    expression = term { ("+" | "-") term }
    term       = factor { ("*" | "/") factor }
    factor     = integer | name | "(" expression ")" | ("+" | "-") factor

`Derives x ts n` says that the tokens `ts` are derived as the phrase `x`, and that `n` is the
largest number of blocks, groups and signs around any point of the derivation. A phrase names the
rule together with the tree that the derivation denotes, so operators of one level group to the
left by the way `tail` hands its left operand on.
-/

namespace BlockCalc

/-- The whole text is tokens, and these are `ts`. -/
def Tokenized (t : Text) (ts : List Token) : Prop := ∃ q, Scan.ofText t = ⟨ts, .eof q⟩

def Sign.lexeme : Sign → Lexeme
  | .plus => .plus
  | .minus => .minus

def BinaryOp.lexeme : BinaryOp → Lexeme
  | .add => .plus
  | .sub => .minus
  | .mul => .star
  | .div => .slash

namespace Grammar

/-- The two levels of binary operators. -/
inductive Level where
  | sum
  | product
deriving DecidableEq, Repr

end Grammar

/-- The level an operator belongs to. -/
def BinaryOp.level : BinaryOp → Grammar.Level
  | .add => .sum
  | .sub => .sum
  | .mul => .product
  | .div => .product

namespace Grammar

/-- A rule of the grammar, with what the tokens derived by it denote. -/
inductive Phrase where
  | factor (e : Expr)
  /-- Operands of one level and the operators between them. -/
  | chain (k : Level) (e : Expr)
  /-- The operators of one level after the operand `left`, with their right operands; together
  with `left` they denote `e`. -/
  | tail (k : Level) (left e : Expr)
  /-- A statement before a token at `next`, which is where an empty one is placed. -/
  | statement (s : Stmt) (next : Position)
  | statements (b : Stmts) (next : Position)
  | compound (pos : Position) (b : Stmts)
  | program (p : Program)

def Phrase.expression : Expr → Phrase := .chain .sum

def Phrase.term : Expr → Phrase := .chain .product

/-- Sums are made of terms, and terms of factors. -/
def Level.operand : Level → Expr → Phrase
  | .sum => .term
  | .product => .factor

inductive Derives : Phrase → List Token → Nat → Prop where
  | integer {digits : String} {v : Int64} {p : Position} :
      Derives (.factor (.int v p)) [⟨.integer digits v, p⟩] 0
  | name {x : String} {p : Position} : Derives (.factor (.var x p)) [⟨.ident x, p⟩] 0
  | group {e : Expr} {ts : List Token} {n : Nat} {p q : Position} :
      Derives (.expression e) ts n →
      Derives (.factor e) (⟨.lparen, p⟩ :: (ts ++ [⟨.rparen, q⟩])) (n + 1)
  | sign {s : Sign} {e : Expr} {ts : List Token} {n : Nat} {p : Position} :
      Derives (.factor e) ts n →
      Derives (.factor (.unary s e p)) (⟨s.lexeme, p⟩ :: ts) (n + 1)
  | chain {k : Level} {l e : Expr} {ts us : List Token} {m n : Nat} :
      Derives (k.operand l) ts m → Derives (.tail k l e) us n →
      Derives (.chain k e) (ts ++ us) (max m n)
  | done {k : Level} {e : Expr} : Derives (.tail k e e) [] 0
  | more {k : Level} {op : BinaryOp} {l r e : Expr} {ts us : List Token} {m n : Nat}
      {p : Position} :
      op.level = k → Derives (k.operand r) ts m → Derives (.tail k (.binary op l r p) e) us n →
      Derives (.tail k l e) (⟨op.lexeme, p⟩ :: (ts ++ us)) (max m n)
  | empty {next : Position} : Derives (.statement (.empty next) next) [] 0
  | assign {x : String} {e : Expr} {ts : List Token} {n : Nat} {p q next : Position} :
      Derives (.expression e) ts n →
      Derives (.statement (.assign x p e q) next) (⟨.ident x, p⟩ :: ⟨.assign, q⟩ :: ts) n
  | block {b : Stmts} {ts : List Token} {n : Nat} {p next : Position} :
      Derives (.compound p b) ts n → Derives (.statement (.block p b) next) ts n
  | one {s : Stmt} {ts : List Token} {n : Nat} {next : Position} :
      Derives (.statement s next) ts n → Derives (.statements (.one s) next) ts n
  | cons {s : Stmt} {b : Stmts} {ts us : List Token} {m n : Nat} {q next : Position} :
      Derives (.statement s q) ts m → Derives (.statements b next) us n →
      Derives (.statements (.cons s b) next) (ts ++ ⟨.semi, q⟩ :: us) (max m n)
  | compound {b : Stmts} {ts : List Token} {n : Nat} {p q : Position} :
      Derives (.statements b q) ts n →
      Derives (.compound p b) (⟨.beginWord, p⟩ :: (ts ++ [⟨.endWord, q⟩])) (n + 1)
  | program {b : Stmts} {ts : List Token} {n : Nat} {p q : Position} :
      Derives (.compound p b) ts n → Derives (.program ⟨p, b⟩) (ts ++ [⟨.dot, q⟩]) n

end Grammar
end BlockCalc
