import BlockCalc.Evaluation
import BlockCalc.Proofs.Arithmetic

/-!
# BlockCalc.Proofs.ExactValue

Evaluation against the value in unbounded integers. Evaluating an expression visits its
sub-expressions in the order of `Expr.postorder` and stops at the first that is at fault by itself
(`Expr.fault`); where there is none, the result is the exact value. The environment is only read.
-/

namespace BlockCalc

open Arith

/-! ## Operators -/

def Sign.apply : Sign → Int → Int
  | .plus, a => a
  | .minus, a => -a

def BinaryOp.apply (mode : Division) : BinaryOp → Int → Int → Int
  | .add, a, b => a + b
  | .sub, a, b => a - b
  | .mul, a, b => a * b
  | .div, a, b => mode.quotient a b

/-- The fault of a result that may be too large. -/
def overflow? (z : Int) : Option ArithError := if Fits z then none else some .overflow

/-- The fault of an operator with the operands `a` and `b`. -/
def BinaryOp.fault? (mode : Division) (op : BinaryOp) (a b : Int) : Option ArithError :=
  if op = .div ∧ b = 0 then some .divisionByZero else overflow? (op.apply mode a b)

theorem overflow?_eq_none {z : Int} : overflow? z = none ↔ Fits z := by
  unfold overflow?
  by_cases h : Fits z <;> simp [h]

theorem BinaryOp.fault?_eq_none {mode : Division} {op : BinaryOp} {a b : Int} :
    op.fault? mode a b = none ↔ (op = .div → b ≠ 0) ∧ Fits (op.apply mode a b) := by
  unfold BinaryOp.fault?
  by_cases h : op = .div ∧ b = 0
  · simp [h]
  · rw [if_neg h, overflow?_eq_none, iff_and_self]
    exact fun _ hop hb => h ⟨hop, hb⟩

/-- What an operator at `p` gives: its exact result, or its fault. -/
def outcome (op : TokenKind) (p : Position) (z : Int) : Option ArithError → Except EvalError Value
  | none => .ok (.int (Int64.ofInt z))
  | some cause => .error (.arithmetic op cause p)

theorem applyUnary_eq_outcome (s : Sign) (p : Position) (n : Int64) :
    Tree.applyUnary s.kind p n =
      outcome s.kind p (s.apply n.toInt) (overflow? (s.apply n.toInt)) := by
  cases s with
  | plus => simp [Tree.applyUnary, Sign.kind, Sign.apply, overflow?, fits_toInt, outcome]
  | minus =>
    simp only [Tree.applyUnary, Sign.kind, Sign.apply, neg_eq_exactly, exactly, overflow?]
    by_cases h : Fits (-n.toInt) <;> simp [h, outcome]

theorem applyBinary_of_exactly {mode : Division} {op : TokenKind} {p : Position} {a b : Int64}
    {f : Int64 → Int64 → Except ArithError Int64} {z : Int}
    (hop : Tree.operation? mode op = some f) (hf : f a b = exactly z) :
    Tree.applyBinary mode op p a b = outcome op p z (overflow? z) := by
  simp only [Tree.applyBinary, hop, hf, exactly, overflow?]
  by_cases h : Fits z <;> simp [h, outcome]

theorem applyBinary_eq_outcome (mode : Division) (op : BinaryOp) (p : Position) (a b : Int64) :
    Tree.applyBinary mode op.kind p a b =
      outcome op.kind p (op.apply mode a.toInt b.toInt) (op.fault? mode a.toInt b.toInt) := by
  by_cases h : op = .div ∧ b.toInt = 0
  · obtain ⟨rfl, hb⟩ := h
    simp [Tree.applyBinary, BinaryOp.kind, Tree.operation?, div_zero mode hb, BinaryOp.fault?, hb,
      outcome]
  · rw [BinaryOp.fault?, if_neg h]
    cases op with
    | add => exact applyBinary_of_exactly rfl (add_eq_exactly a b)
    | sub => exact applyBinary_of_exactly rfl (sub_eq_exactly a b)
    | mul => exact applyBinary_of_exactly rfl (mul_eq_exactly a b)
    | div => exact applyBinary_of_exactly rfl (div_eq_exactly mode fun hb => h ⟨rfl, hb⟩)

/-! ## Expressions -/

namespace Expr

/-- The sub-expressions, from left to right and each after its operands. -/
def postorder : Expr → List Expr
  | .int v p => [.int v p]
  | .var x p => [.var x p]
  | .unary s e p => e.postorder ++ [.unary s e p]
  | .binary op l r p => l.postorder ++ r.postorder ++ [.binary op l r p]

/-- The value in unbounded integers. Where a variable is unbound or a divisor is zero there is
none, and the number given stands for nothing. -/
def exact (mode : Division) (env : Env) : Expr → Int
  | .int v _ => v.toInt
  | .var x _ => ((env.get? x).map Int64.toInt).getD 0
  | .unary s e _ => s.apply (e.exact mode env)
  | .binary op l r _ => op.apply mode (l.exact mode env) (r.exact mode env)

/-- The fault of an expression whose operands are without fault. -/
def fault (mode : Division) (env : Env) : Expr → Option EvalError
  | .int _ _ => none
  | .var x p => if (env.get? x).isSome then none else some (.undefined x p)
  | .unary s e p => (overflow? (s.apply (e.exact mode env))).map (.arithmetic s.kind · p)
  | .binary op l r p =>
    (op.fault? mode (l.exact mode env) (r.exact mode env)).map (.arithmetic op.kind · p)

/-- The fault of the first sub-expression that has one. -/
def firstFault (mode : Division) (env : Env) (e : Expr) : Option EvalError :=
  e.postorder.findSome? (fault mode env)

variable {mode : Division} {env : Env}

/-- Every variable is bound, no divisor is zero, and the value of every sub-expression fits. -/
structure Computes (mode : Division) (env : Env) (e : Expr) : Prop where
  bound : ∀ x p, .var x p ∈ e.postorder → (env.get? x).isSome
  divisors : ∀ l r p, .binary .div l r p ∈ e.postorder → r.exact mode env ≠ 0
  fits : ∀ s ∈ e.postorder, Fits (s.exact mode env)

theorem mem_postorder_self (e : Expr) : e ∈ e.postorder := by
  cases e <;> simp [postorder]

theorem fault_eq_none {e : Expr} :
    e.fault mode env = none ↔ (∀ x p, e = .var x p → (env.get? x).isSome) ∧
      (∀ l r p, e = .binary .div l r p → r.exact mode env ≠ 0) ∧ Fits (e.exact mode env) := by
  cases e with
  | int v p => simp [fault, exact, fits_toInt]
  | var x p =>
    cases h : env.get? x with
    | none => simp [fault, h]
    | some v => simp [fault, exact, h, fits_toInt]
  | unary s e p => simp [fault, exact, overflow?_eq_none]
  | binary op l r p =>
    rw [fault, Option.map_eq_none_iff, BinaryOp.fault?_eq_none]
    constructor
    · rintro ⟨hdiv, hfits⟩
      exact ⟨nofun, fun l r p h => by cases h; exact hdiv rfl, hfits⟩
    · rintro ⟨-, hdiv, hfits⟩
      exact ⟨fun h => hdiv l r p (by rw [h]), hfits⟩

/-- Nothing is at fault exactly where the expression has a value. -/
theorem firstFault_eq_none {e : Expr} : e.firstFault mode env = none ↔ e.Computes mode env := by
  rw [firstFault, List.findSome?_eq_none_iff]
  constructor
  · intro h
    exact {
      bound := fun x p hx => (fault_eq_none.1 (h _ hx)).1 x p rfl
      divisors := fun l r p hx => (fault_eq_none.1 (h _ hx)).2.1 l r p rfl
      fits := fun s hs => (fault_eq_none.1 (h s hs)).2.2 }
  · intro h s hs
    refine fault_eq_none.2 ⟨?_, ?_, h.fits s hs⟩
    · rintro x p rfl; exact h.bound x p hs
    · rintro l r p rfl; exact h.divisors l r p hs

theorem toInt_ofInt_exact {e : Expr} (h : e.firstFault mode env = none) :
    (Int64.ofInt (e.exact mode env)).toInt = e.exact mode env :=
  ((firstFault_eq_none.1 h).fits e e.mem_postorder_self).toInt_ofInt

theorem firstFault_unary (s : Sign) (e : Expr) (p : Position) :
    (Expr.unary s e p).firstFault mode env =
      (e.firstFault mode env).or ((Expr.unary s e p).fault mode env) := by
  simp [firstFault, postorder, List.findSome?_append]

theorem firstFault_binary (op : BinaryOp) (l r : Expr) (p : Position) :
    (Expr.binary op l r p).firstFault mode env =
      (l.firstFault mode env).or
        ((r.firstFault mode env).or ((Expr.binary op l r p).fault mode env)) := by
  simp [firstFault, postorder, List.findSome?_append]

/-- Evaluation gives the exact value or the first fault, and keeps the environment. -/
theorem eval_toTree (e : Expr) :
    e.toTree.eval mode env =
      (match e.firstFault mode env with
        | none => .ok (.int (Int64.ofInt (e.exact mode env)))
        | some f => .error f, env) := by
  induction e with
  | int v p => simp [toTree, Tree.eval, firstFault, postorder, fault, exact]
  | var x p =>
    cases h : env.get? x with
    | none => simp [toTree, Tree.eval, firstFault, postorder, fault, h]
    | some v => simp [toTree, Tree.eval, firstFault, postorder, fault, exact, h]
  | unary s e p ih =>
    rw [toTree, Tree.eval, ih, firstFault_unary]
    cases h : e.firstFault mode env with
    | some f => rfl
    | none =>
      simp only [Evaluated.andThen, Tree.asInt, applyUnary_eq_outcome, toInt_ofInt_exact h,
        Option.none_or, fault, exact]
      cases overflow? (s.apply (e.exact mode env)) <;> rfl
  | binary op l r p ihl ihr =>
    rw [toTree, Tree.eval, ihl, firstFault_binary]
    cases hl : l.firstFault mode env with
    | some f => rfl
    | none =>
      simp only [Evaluated.andThen, Tree.asInt, ihr, Option.none_or]
      cases hr : r.firstFault mode env with
      | some f => rfl
      | none =>
        simp only [applyBinary_eq_outcome, toInt_ofInt_exact hl, toInt_ofInt_exact hr,
          Option.none_or, fault, exact]
        cases op.fault? mode (l.exact mode env) (r.exact mode env) <;> rfl

/-- An expression evaluates to an integer exactly when all of its parts compute in 64 bits, and
then to its value in unbounded integers. Otherwise the error is the fault of the first part, from
left to right and operands first, that has one. The environment stays as it is. -/
theorem eval_exact (mode : Division) (env : Env) (e : Expr) :
    (∀ v, (e.toTree.eval mode env).1 = .ok (.int v) ↔
      e.Computes mode env ∧ v.toInt = e.exact mode env) ∧
    (¬ e.Computes mode env → ∃ before s after f, e.postorder = before ++ s :: after ∧
      (∀ x ∈ before, x.fault mode env = none) ∧ s.fault mode env = some f ∧
      (e.toTree.eval mode env).1 = .error f) ∧
    (e.toTree.eval mode env).2 = env := by
  rw [eval_toTree]
  refine ⟨fun v => ?_, fun h => ?_, rfl⟩
  · cases h : e.firstFault mode env with
    | none =>
      simp only [Except.ok.injEq, Value.int.injEq, firstFault_eq_none.1 h, true_and]
      rw [← Int64.toInt_inj, toInt_ofInt_exact h, eq_comm]
    | some f =>
      have : ¬ e.Computes mode env := fun hc => by simp [firstFault_eq_none.2 hc] at h
      simp [this]
  · obtain ⟨f, hf⟩ : ∃ f, e.firstFault mode env = some f :=
      Option.ne_none_iff_exists'.1 fun hnone => h (firstFault_eq_none.1 hnone)
    obtain ⟨before, s, after, hpost, hs, hbefore⟩ := List.findSome?_eq_some_iff.1 hf
    exact ⟨before, s, after, f, hpost, hbefore, hs, by rw [hf]⟩

end Expr
end BlockCalc
