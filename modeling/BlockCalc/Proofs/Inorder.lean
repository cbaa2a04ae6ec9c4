import BlockCalc.Tree
import BlockCalc.Proofs.Grammar

/-!
# BlockCalc.Proofs.Inorder

A tree read from left to right. Every token but the punctuation stands for one node, so the marks
of a tree in order are those of the tokens that it was derived from (`Derives.marks`).
-/

namespace BlockCalc

/-- What a token or a node says, and where. -/
structure Mark where
  kind : TokenKind
  name : String
  value : Int64
  pos : Position
deriving DecidableEq, Repr

/-- The name that a lexeme is; none for the other lexemes. -/
def Lexeme.name : Lexeme → String
  | .ident x => x
  | _ => ""

/-- Parentheses, separators and the words that close are punctuation. -/
def Lexeme.isPunctuation : Lexeme → Bool
  | .lparen => true
  | .rparen => true
  | .semi => true
  | .endWord => true
  | .dot => true
  | _ => false

def Token.mark (t : Token) : Mark := ⟨t.lexeme.kind, t.lexeme.name, t.lexeme.value, t.pos⟩

/-- The marks of the tokens that are no punctuation. -/
def marksOf (ts : List Token) : List Mark :=
  (ts.filter fun t => !t.lexeme.isPunctuation).map Token.mark

@[simp] theorem marksOf_nil : marksOf [] = [] := rfl

@[simp] theorem marksOf_append (ts us : List Token) :
    marksOf (ts ++ us) = marksOf ts ++ marksOf us := by
  simp [marksOf]

theorem marksOf_cons_of_punctuation {t : Token} (h : t.lexeme.isPunctuation = true)
    (ts : List Token) : marksOf (t :: ts) = marksOf ts := by
  simp [marksOf, h]

theorem marksOf_cons {t : Token} (h : t.lexeme.isPunctuation = false) (ts : List Token) :
    marksOf (t :: ts) = t.mark :: marksOf ts := by
  simp [marksOf, h]

/-- The places of the marks are places of tokens, in the same order. -/
theorem marksOf_pos_sublist (ts : List Token) :
    ((marksOf ts).map (·.pos)).Sublist (ts.map (·.pos)) := by
  rw [marksOf, List.map_map]
  exact List.filter_sublist.map _

def Expr.marks : Expr → List Mark
  | .int v p => [⟨.integer, "", v, p⟩]
  | .var x p => [⟨.ident, x, 0, p⟩]
  | .unary s e p => ⟨s.kind, "", 0, p⟩ :: e.marks
  | .binary op l r p => l.marks ++ ⟨op.kind, "", 0, p⟩ :: r.marks

mutual

def Stmt.marks : Stmt → List Mark
  | .block p b => ⟨.beginWord, "", 0, p⟩ :: b.marks
  | .assign x q e p => ⟨.ident, x, 0, q⟩ :: ⟨.assign, "", 0, p⟩ :: e.marks
  | .empty _ => []

def Stmts.marks : Stmts → List Mark
  | .one s => s.marks
  | .cons s b => s.marks ++ b.marks

end

def Program.marks (p : Program) : List Mark := ⟨.beginWord, "", 0, p.pos⟩ :: p.body.marks

theorem Sign.mark_lexeme (s : Sign) (p : Position) :
    (⟨s.lexeme, p⟩ : Token).mark = ⟨s.kind, "", 0, p⟩ := by
  cases s <;> rfl

theorem Sign.isPunctuation_lexeme (s : Sign) : s.lexeme.isPunctuation = false := by
  cases s <;> rfl

theorem BinaryOp.mark_lexeme (op : BinaryOp) (p : Position) :
    (⟨op.lexeme, p⟩ : Token).mark = ⟨op.kind, "", 0, p⟩ := by
  cases op <;> rfl

theorem BinaryOp.isPunctuation_lexeme (op : BinaryOp) : op.lexeme.isPunctuation = false := by
  cases op <;> rfl

namespace Grammar

/-- The marks `ms` are those of the phrase. The operators after an operand add theirs to its. -/
def Phrase.Marks : Phrase → List Mark → Prop
  | .factor e, ms => e.marks = ms
  | .chain _ e, ms => e.marks = ms
  | .tail _ l e, ms => e.marks = l.marks ++ ms
  | .statement s _, ms => s.marks = ms
  | .statements b _, ms => b.marks = ms
  | .compound p b, ms => ⟨.beginWord, "", 0, p⟩ :: b.marks = ms
  | .program p, ms => p.marks = ms

theorem Phrase.marks_operand {k : Level} {e : Expr} {ms : List Mark} :
    (k.operand e).Marks ms ↔ e.marks = ms := by
  cases k <;> rfl

theorem Derives.marks {x : Phrase} {ts : List Token} {n : Nat} (h : Derives x ts n) :
    x.Marks (marksOf ts) := by
  induction h with
  | integer => rfl
  | name => rfl
  | group _ ih =>
    rw [marksOf_cons_of_punctuation rfl, marksOf_append, marksOf_cons_of_punctuation rfl,
      marksOf_nil, List.append_nil]
    exact ih
  | @sign s e ts n p _ ih =>
    rw [marksOf_cons s.isPunctuation_lexeme, s.mark_lexeme]
    exact congrArg _ ih
  | chain _ _ ihl ih =>
    rw [marksOf_append, ← Phrase.marks_operand.1 ihl]
    exact ih
  | done => exact (List.append_nil _).symm
  | @more k op l r e ts us m n p _ _ _ ihr ih =>
    rw [marksOf_cons op.isPunctuation_lexeme, op.mark_lexeme, marksOf_append,
      ← Phrase.marks_operand.1 ihr]
    exact ih.trans (by simp only [Expr.marks, List.append_assoc, List.cons_append])
  | empty => rfl
  | assign _ ih =>
    rw [marksOf_cons rfl, marksOf_cons rfl]
    exact congrArg (_ :: _ :: ·) ih
  | block _ ih => exact ih
  | one _ ih => exact ih
  | cons _ _ ihs ih =>
    rw [marksOf_append, marksOf_cons_of_punctuation rfl, ← ihs, ← ih]
    rfl
  | compound _ ih =>
    rw [marksOf_cons rfl, marksOf_append, marksOf_cons_of_punctuation rfl, marksOf_nil,
      List.append_nil]
    exact congrArg _ ih
  | program _ ih =>
    rw [marksOf_append, marksOf_cons_of_punctuation rfl, marksOf_nil, List.append_nil]
    exact ih

end Grammar
end BlockCalc
