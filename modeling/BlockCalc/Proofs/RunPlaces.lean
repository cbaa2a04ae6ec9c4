import BlockCalc.Engine
import BlockCalc.Proofs.TreePlaces

/-!
# BlockCalc.Proofs.RunPlaces

Runs up to the places of nodes. Evaluation copies places into faults and does nothing else with
them, so a tree without its places is evaluated like the tree itself, and its fault is the same
without its place (`Tree.eval_bare`). Programs that differ in places at most therefore leave the
same environment.
-/

namespace BlockCalc

/-- The fault without its place. -/
def EvalError.bare : EvalError → EvalError
  | .undefined x _ => .undefined x .nowhere
  | .arithmetic op cause _ => .arithmetic op cause .nowhere
  | .missingNode => .missingNode
  | .statementAsValue _ => .statementAsValue .nowhere
  | .unsupportedUnary op _ => .unsupportedUnary op .nowhere
  | .unsupportedBinary op _ => .unsupportedBinary op .nowhere

namespace Evaluated

def bare {α : Type} : Evaluated α → Evaluated α
  | (.ok a, env) => (.ok a, env)
  | (.error f, env) => (.error f.bare, env)

theorem bare_andThen {α β : Type} (r : Evaluated α) {f g : α → Env → Evaluated β}
    (h : ∀ a env, g a env = (f a env).bare) : r.bare.andThen g = (r.andThen f).bare := by
  obtain ⟨x, env⟩ := r
  cases x with
  | error e => rfl
  | ok a => exact h a env

theorem eq_of_bare_eq_ok {α : Type} {r : Evaluated α} {a : α} {env : Env}
    (h : r.bare = (.ok a, env)) : r = (.ok a, env) := by
  obtain ⟨x, env'⟩ := r
  cases x with
  | error f => simp [bare] at h
  | ok b => exact h

theorem cases_of_bare_eq {α : Type} {r r' : Evaluated α} (h : r'.bare = r.bare) :
    (∃ a env, r = (.ok a, env) ∧ r' = (.ok a, env)) ∨
      ∃ f f' env, f'.bare = f.bare ∧ r = (.error f, env) ∧ r' = (.error f', env) := by
  obtain ⟨x, env⟩ := r
  obtain ⟨x', env'⟩ := r'
  cases x with
  | ok a => exact .inl ⟨a, env, rfl, eq_of_bare_eq_ok h⟩
  | error f =>
    cases x' with
    | ok a => cases h
    | error f' =>
      obtain ⟨hf, rfl⟩ := Prod.mk.inj h
      exact .inr ⟨f, f', env', Except.error.inj hf, rfl, rfl⟩

end Evaluated

namespace Tree

theorem pos_bare (t : Tree) : t.bare.pos = .nowhere := by
  cases t <;> rfl

theorem asInt_bare (p : Position) (v : Value) (env : Env) :
    asInt .nowhere v env = (asInt p v env).bare := by
  cases v <;> rfl

theorem applyUnary_bare (op : TokenKind) (p : Position) (n : Int64) (env : Env) :
    (applyUnary op .nowhere n, env) = Evaluated.bare (applyUnary op p n, env) := by
  unfold applyUnary
  split
  · rfl
  · cases Arith.neg n <;> rfl
  · rfl

theorem applyBinary_bare (mode : Division) (op : TokenKind) (p : Position) (a b : Int64)
    (env : Env) :
    (applyBinary mode op .nowhere a b, env) = Evaluated.bare (applyBinary mode op p a b, env) := by
  unfold applyBinary
  cases operation? mode op with
  | none => rfl
  | some f => cases hf : f a b <;> simp only [hf] <;> rfl

mutual

theorem eval_bare (mode : Division) : ∀ (t : Tree) (env : Env),
    t.bare.eval mode env = (t.eval mode env).bare
  | .missing, env => rfl
  | .int v p, env => rfl
  | .var x p, env => by
    simp only [bare, eval]
    cases env.get? x <;> rfl
  | .unary op e p, env => by
    simp only [bare, eval, e.eval_bare mode env, e.pos_bare]
    refine Evaluated.bare_andThen _ fun v env => ?_
    rw [asInt_bare e.pos]
    exact Evaluated.bare_andThen _ fun n env => applyUnary_bare op p n env
  | .binary op l r p, env => by
    simp only [bare, eval, l.eval_bare mode env, l.pos_bare, r.pos_bare]
    refine Evaluated.bare_andThen _ fun v env => ?_
    rw [asInt_bare l.pos]
    refine Evaluated.bare_andThen _ fun a env => ?_
    rw [r.eval_bare mode env]
    refine Evaluated.bare_andThen _ fun w env => ?_
    rw [asInt_bare r.pos]
    exact Evaluated.bare_andThen _ fun b env => applyBinary_bare mode op p a b env
  | .assign x q e p, env => by
    simp only [bare, eval, e.eval_bare mode env, e.pos_bare]
    refine Evaluated.bare_andThen _ fun v env => ?_
    rw [asInt_bare e.pos]
    exact Evaluated.bare_andThen _ fun _ _ => rfl
  | .noop p, env => rfl
  | .compound body p, env => by simp only [bare, eval, evalAll_bare mode body env]
  | .program body p, env => by simp only [bare, eval, evalAll_bare mode body env]

theorem evalAll_bare (mode : Division) : ∀ (ts : List Tree) (env : Env),
    evalAll mode (bareAll ts) env = (evalAll mode ts env).bare
  | [], env => rfl
  | t :: ts, env => by
    simp only [bareAll, evalAll, t.eval_bare mode env]
    exact Evaluated.bare_andThen _ fun _ env => evalAll_bare mode ts env

end

end Tree

theorem Program.eval_congr {p p' : Program} (h : p'.bare = p.bare) (mode : Division) (env : Env) :
    (p'.toTree.eval mode env).bare = (p.toTree.eval mode env).bare := by
  rw [← Tree.eval_bare, ← Tree.eval_bare, p'.bare_toTree, p.bare_toTree, h]

theorem Expr.eval_congr {e e' : Expr} (h : e'.bare = e.bare) (mode : Division) (env : Env) :
    (e'.toTree.eval mode env).bare = (e.toTree.eval mode env).bare := by
  rw [← Tree.eval_bare, ← Tree.eval_bare, e'.bare_toTree, e.bare_toTree, h]

end BlockCalc
