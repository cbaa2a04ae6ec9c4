import BlockCalc.Proofs.Places

/-!
# BlockCalc.Proofs.Canonical

The canonical lexemes of a tree: parentheses stand only where the tree would be another without
them. `nesting` is how deep they nest.

`Program.derives_spelling`: the canonical lexemes derive the tree. `Derives.nestsWithin`: no
derivation of the tree nests less.
-/

namespace BlockCalc
namespace Grammar

/-- Where an expression stands: as a factor, or as a chain of operands. -/
inductive Slot where
  | factor
  | chain (k : Level)

def Slot.phrase : Slot → Expr → Phrase
  | .factor => .factor
  | .chain k => .chain k

/-- An operator may stand here without parentheses. -/
def Slot.admits : Slot → BinaryOp → Bool
  | .factor, _ => false
  | .chain .product, op => op.level = .product
  | .chain .sum, _ => true

/-- Where the operands of a level stand. -/
def Level.slot : Level → Slot
  | .sum => .chain .product
  | .product => .factor

theorem Level.operand_eq_phrase (k : Level) : k.operand = k.slot.phrase := by
  cases k <;> rfl

theorem Slot.admits_level (op : BinaryOp) : (Slot.chain op.level).admits op = true := by
  cases op <;> rfl

end Grammar

open Grammar

/-- The canonical digits of a number. -/
def numeral (v : Int64) : String := s!"{v.toInt}"

/-- The canonical lexemes of an expression that stands in a slot. -/
def Expr.spelling : Expr → Slot → List Lexeme
  | .int v _, _ => [.integer (numeral v) v]
  | .var x _, _ => [.ident x]
  | .unary s e _, _ => s.lexeme :: e.spelling .factor
  | .binary op l r _, slot =>
    let chain := l.spelling (.chain op.level) ++ op.lexeme :: r.spelling op.level.slot
    if slot.admits op then chain else .lparen :: (chain ++ [.rparen])

/-- How deep the canonical lexemes of an expression nest. -/
def Expr.nesting : Expr → Slot → Nat
  | .int _ _, _ => 0
  | .var _ _, _ => 0
  | .unary _ e _, _ => e.nesting .factor + 1
  | .binary op l r _, slot =>
    let n := max (l.nesting (.chain op.level)) (r.nesting op.level.slot)
    if slot.admits op then n else n + 1

mutual

def Stmt.spelling : Stmt → List Lexeme
  | .block _ b => .beginWord :: (b.spelling ++ [.endWord])
  | .assign x _ e _ => .ident x :: .assign :: e.spelling (.chain .sum)
  | .empty _ => []

def Stmts.spelling : Stmts → List Lexeme
  | .one s => s.spelling
  | .cons s b => s.spelling ++ .semi :: b.spelling

end

mutual

def Stmt.nesting : Stmt → Nat
  | .block _ b => b.nesting + 1
  | .assign _ _ e _ => e.nesting (.chain .sum)
  | .empty _ => 0

def Stmts.nesting : Stmts → Nat
  | .one s => s.nesting
  | .cons s b => max s.nesting b.nesting

end

def Program.spelling (p : Program) : List Lexeme :=
  .beginWord :: (p.body.spelling ++ [.endWord, .dot])

def Program.nesting (p : Program) : Nat := p.body.nesting + 1

/-! ## Nesting does not depend on places -/

theorem Expr.nesting_bare (e : Expr) : ∀ slot : Slot, e.bare.nesting slot = e.nesting slot := by
  induction e with
  | int v p => intro slot; rfl
  | var x p => intro slot; rfl
  | unary s e p ih => intro slot; simp only [bare, nesting, ih]
  | binary op l r p ihl ihr => intro slot; simp only [bare, nesting, ihl, ihr]

mutual

theorem Stmt.nesting_bare : ∀ s : Stmt, s.bare.nesting = s.nesting
  | .block p b => by simp only [Stmt.bare, Stmt.nesting, b.nesting_bare]
  | .assign x p e q => by simp only [Stmt.bare, Stmt.nesting, e.nesting_bare]
  | .empty p => rfl

theorem Stmts.nesting_bare : ∀ b : Stmts, b.bare.nesting = b.nesting
  | .one s => by simp only [Stmts.bare, Stmts.nesting, s.nesting_bare]
  | .cons s b => by simp only [Stmts.bare, Stmts.nesting, s.nesting_bare, b.nesting_bare]

end

theorem Program.nesting_bare (p : Program) : p.bare.nesting = p.nesting := by
  simp only [Program.bare, Program.nesting, p.body.nesting_bare]

/-- Tokens with the given lexemes. -/
def nowhere (ls : List Lexeme) : List Token := ls.map (⟨·, .nowhere⟩)

@[simp] theorem nowhere_nil : nowhere [] = [] := rfl

@[simp] theorem nowhere_cons (l : Lexeme) (ls : List Lexeme) :
    nowhere (l :: ls) = ⟨l, .nowhere⟩ :: nowhere ls := rfl

@[simp] theorem nowhere_append (ls ms : List Lexeme) :
    nowhere (ls ++ ms) = nowhere ls ++ nowhere ms := List.map_append

theorem lexemes_nowhere (ls : List Lexeme) : lexemes (nowhere ls) = ls := by
  simp [lexemes, nowhere, Function.comp_def]

/-! ## The canonical lexemes derive the tree -/

namespace Grammar

theorem Derives.cast {x : Phrase} {ts us : List Token} {m n : Nat} (h : Derives x ts m)
    (ht : ts = us) (hn : m = n) : Derives x us n := by
  subst ht hn; exact h

/-- An operand alone is a chain. -/
theorem Derives.single {k : Level} {e : Expr} {ts : List Token} {n : Nat}
    (h : Derives (k.operand e) ts n) : Derives (.chain k e) ts n :=
  (Derives.chain h .done).cast (List.append_nil ts) (Nat.max_zero n)

theorem Derives.tail_snoc {x : Phrase} {ts : List Token} {m : Nat} (h : Derives x ts m) :
    ∀ {k : Level} {op : BinaryOp} {l l' r : Expr} {us : List Token} {n : Nat} {p : Position},
      x = .tail k l l' → op.level = k → Derives (k.operand r) us n →
      Derives (.tail k l (.binary op l' r p)) (ts ++ ⟨op.lexeme, p⟩ :: us) (max m n) := by
  induction h with
  | done =>
    intro k op l l' r us n p hx hk hr
    cases hx
    exact (Derives.more hk hr .done).cast (by simp) (by omega)
  | more hk' hr' _ _ ih =>
    intro k op l l' r us n p hx hk hr
    cases hx
    exact (Derives.more hk' hr' (ih rfl hk hr)).cast (by simp) (by omega)
  | _ => intros; contradiction

/-- A chain goes on with an operator of its level and one more operand. -/
theorem Derives.snoc {op : BinaryOp} {l r : Expr} {ts us : List Token} {m n : Nat} {p : Position}
    (hl : Derives (.chain op.level l) ts m) (hr : Derives (op.level.operand r) us n) :
    Derives (.chain op.level (.binary op l r p)) (ts ++ ⟨op.lexeme, p⟩ :: us) (max m n) := by
  cases hl with
  | chain h htail => exact (Derives.chain h (htail.tail_snoc rfl rfl hr)).cast (by simp) (by omega)

/-- A factor can stand anywhere. -/
theorem Derives.of_factor {e : Expr} {ts : List Token} {n : Nat} (h : Derives (.factor e) ts n) :
    ∀ slot : Slot, Derives (slot.phrase e) ts n
  | .factor => h
  | .chain .product => .single h
  | .chain .sum => .single (k := .sum) (.single (k := .product) h)

/-- A chain can stand where its operators can. -/
theorem Derives.of_chain {op : BinaryOp} {e : Expr} {ts : List Token} {n : Nat}
    (h : Derives (.chain op.level e) ts n) :
    ∀ slot : Slot, slot.admits op = true → Derives (slot.phrase e) ts n := by
  intro slot hslot
  match slot with
  | .factor => cases hslot
  | .chain .product =>
    have hk : op.level = .product := by simpa [Slot.admits] using hslot
    rwa [hk] at h
  | .chain .sum =>
    cases hk : op.level with
    | sum => rwa [hk] at h
    | product =>
      rw [hk] at h
      exact .single (k := .sum) h

end Grammar

theorem Expr.derives_spelling (e : Expr) :
    ∀ slot : Slot, Derives (slot.phrase e.bare) (nowhere (e.spelling slot)) (e.nesting slot) := by
  induction e with
  | int v p => intro slot; exact Derives.integer.of_factor slot
  | var x p => intro slot; exact Derives.name.of_factor slot
  | unary s e p ih => intro slot; exact (Derives.sign (ih .factor)).of_factor slot
  | binary op l r p ihl ihr =>
    intro slot
    have hr := ihr op.level.slot
    rw [← Level.operand_eq_phrase] at hr
    have hchain := Derives.snoc (p := .nowhere) (ihl (.chain op.level)) hr
    cases hslot : slot.admits op with
    | true =>
      refine (hchain.of_chain slot hslot).cast ?_ ?_
      · simp [spelling, hslot]
      · simp [nesting, hslot]
    | false =>
      have hsum := hchain.of_chain (.chain .sum) rfl
      refine ((Derives.group (p := .nowhere) (q := .nowhere) hsum).of_factor slot).cast ?_ ?_
      · simp [spelling, hslot]
      · simp [nesting, hslot]

mutual

theorem Stmt.derives_spelling : ∀ s : Stmt,
    Derives (.statement s.bare .nowhere) (nowhere s.spelling) s.nesting
  | .block p b => by
    have hb := Derives.compound (p := .nowhere) b.derives_spelling
    exact (Derives.block hb).cast (by simp [Stmt.spelling]) rfl
  | .assign x p e q => Derives.assign (e.derives_spelling (.chain .sum))
  | .empty p => Derives.empty

theorem Stmts.derives_spelling : ∀ b : Stmts,
    Derives (.statements b.bare .nowhere) (nowhere b.spelling) b.nesting
  | .one s => Derives.one s.derives_spelling
  | .cons s b => by
    exact (Derives.cons s.derives_spelling b.derives_spelling).cast (by simp [Stmts.spelling]) rfl

end

theorem Program.derives_spelling (p : Program) :
    Derives (.program p.bare) (nowhere p.spelling) p.nesting := by
  have hb := Derives.compound (p := .nowhere) p.body.derives_spelling
  exact (Derives.program (q := .nowhere) hb).cast (by simp [Program.spelling]) rfl

/-! ## No derivation of the tree nests less -/

/-- The looser the slot, the fewer parentheses. -/
theorem Expr.nesting_slot_le (e : Expr) (k : Level) :
    e.nesting (.chain k) ≤ e.nesting k.slot := by
  cases e with
  | int v p => exact Nat.le_refl _
  | var x p => exact Nat.le_refl _
  | unary s e p => exact Nat.le_refl _
  | binary op l r p =>
    cases k <;> cases op <;> simp [nesting, Slot.admits, Level.slot, BinaryOp.level]

/-- One pair of parentheses is enough for any slot. -/
theorem Expr.nesting_factor_le (e : Expr) : e.nesting .factor ≤ e.nesting (.chain .sum) + 1 := by
  cases e with
  | int v p => exact Nat.zero_le _
  | var x p => exact Nat.zero_le _
  | unary s e p => exact Nat.le_succ _
  | binary op l r p => simp [nesting, Slot.admits]

namespace Grammar

/-- The canonical lexemes of a phrase nest at most `n` deep. -/
def Phrase.NestsWithin : Phrase → Nat → Prop
  | .factor e, n => e.nesting .factor ≤ n
  | .chain k e, n => e.nesting (.chain k) ≤ n
  | .tail k l e, n => e.nesting (.chain k) ≤ max (l.nesting (.chain k)) n
  | .statement s _, n => s.nesting ≤ n
  | .statements b _, n => b.nesting ≤ n
  | .compound _ b, n => b.nesting + 1 ≤ n
  | .program p, n => p.nesting ≤ n

theorem Phrase.nestsWithin_operand {k : Level} {e : Expr} {n : Nat} :
    (k.operand e).NestsWithin n ↔ e.nesting k.slot ≤ n := by
  cases k <;> rfl

theorem Derives.nestsWithin {x : Phrase} {ts : List Token} {n : Nat} (h : Derives x ts n) :
    x.NestsWithin n := by
  induction h with
  | integer => exact Nat.le_refl _
  | name => exact Nat.le_refl _
  | @group e ts n p q _ ih =>
    exact Nat.le_trans e.nesting_factor_le (Nat.succ_le_succ ih)
  | sign _ ih => exact Nat.succ_le_succ ih
  | @chain k l e ts us m n _ _ ihl ih =>
    have hl := Nat.le_trans (l.nesting_slot_le k) (Phrase.nestsWithin_operand.1 ihl)
    exact Nat.le_trans ih (Nat.max_le.2 ⟨by omega, by omega⟩)
  | done => exact Nat.le_max_left _ _
  | @more k op l r e ts us m n p hk _ _ ihr ih =>
    subst hk
    have hr := Phrase.nestsWithin_operand.1 ihr
    simp only [Phrase.NestsWithin, Expr.nesting, Slot.admits_level, if_true] at ih ⊢
    omega
  | empty => exact Nat.le_refl _
  | assign _ ih => exact ih
  | block _ ih => exact ih
  | one _ ih => exact ih
  | cons _ _ ihs ih =>
    simp only [Phrase.NestsWithin, Stmts.nesting] at ihs ih ⊢
    omega
  | compound _ ih => exact Nat.succ_le_succ ih
  | program _ ih => exact ih

end Grammar
end BlockCalc
