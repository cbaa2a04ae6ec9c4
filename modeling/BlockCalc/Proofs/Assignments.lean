import BlockCalc.Analysis
import BlockCalc.Engine
import BlockCalc.Proofs.ExactValue
import BlockCalc.Proofs.Inorder

/-!
# BlockCalc.Proofs.Assignments

A program is its assignments in the order of the text. Blocks and empty statements do nothing of
their own, neither to the environment (`Stmts.evalAll_toTrees`) nor to the events of a run
(`Stmts.events_eq`), so what holds of every run is proved by induction on a list of assignments:
`evalAll_assignment` is the step. What an assignment reads are the names that stand in its value
(`Expr.reads_eq`).
-/

namespace BlockCalc

structure Assignment where
  name : String
  namePos : Position
  value : Expr
  pos : Position

def Assignment.toTree (a : Assignment) : Tree := .assign a.name a.namePos a.value.toTree a.pos

/-- The read that a mark stands for: a name is read where it stands, and nothing else is. -/
def Mark.read? (m : Mark) : Option Event :=
  if m.kind = .ident then some (.read m.name m.pos) else none

/-- An assignment reads the names in its value, from left to right, and then writes its target. -/
def Assignment.events (a : Assignment) : List Event :=
  a.value.marks.filterMap Mark.read? ++ [.write a.name a.namePos]

/-- An expression reads the names that stand in it, in the order of the text. -/
theorem Expr.reads_eq (e : Expr) : e.reads = e.marks.filterMap Mark.read? := by
  induction e with
  | int v p => rfl
  | var x p => rfl
  | unary s e p ih =>
    have hsign : Mark.read? ⟨s.kind, "", 0, p⟩ = none := by cases s <;> rfl
    rw [reads, marks, List.filterMap_cons_none hsign, ih]
  | binary op l r p ihl ihr =>
    have hop : Mark.read? ⟨op.kind, "", 0, p⟩ = none := by cases op <;> rfl
    rw [reads, marks, List.filterMap_append, List.filterMap_cons_none hop, ihl, ihr]

theorem Assignment.events_eq (a : Assignment) :
    a.events = a.value.reads ++ [.write a.name a.namePos] := by
  rw [events, a.value.reads_eq]

mutual

def Stmt.assignments : Stmt → List Assignment
  | .block _ b => b.assignments
  | .assign x q e p => [⟨x, q, e, p⟩]
  | .empty _ => []

def Stmts.assignments : Stmts → List Assignment
  | .one s => s.assignments
  | .cons s b => s.assignments ++ b.assignments

end

/-- The assignments of a program in textual order. -/
def Program.assignments (p : Program) : List Assignment := p.body.assignments

namespace Evaluated

/-- The fault that an evaluation ends with, if any. -/
def fault? {α : Type} (r : Evaluated α) : Option EvalError :=
  match r.1 with
  | .ok _ => none
  | .error f => some f

theorem andThen_assoc {α β γ : Type} (r : Evaluated α) (f : α → Env → Evaluated β)
    (g : β → Env → Evaluated γ) :
    (r.andThen f).andThen g = r.andThen fun a env => (f a env).andThen g := by
  obtain ⟨x, env⟩ := r
  cases x <;> rfl

end Evaluated

namespace Tree

variable {mode : Division}

theorem evalAll_append (ts us : List Tree) (env : Env) :
    evalAll mode (ts ++ us) env =
      (evalAll mode ts env).andThen fun _ env => evalAll mode us env := by
  induction ts generalizing env with
  | nil => rfl
  | cons t ts ih =>
    simp only [List.cons_append, evalAll, Evaluated.andThen_assoc, ih]

theorem evalAll_unit (ts : List Tree) (env : Env) {v : Value}
    (h : (evalAll mode ts env).1 = .ok v) : v = .unit := by
  induction ts generalizing env with
  | nil => cases h; rfl
  | cons t ts ih =>
    rw [evalAll] at h
    generalize t.eval mode env = r at h
    obtain ⟨x, env'⟩ := r
    cases x with
    | error f => cases h
    | ok w => exact ih env' h

theorem evalAll_singleton (t : Tree) (env : Env)
    (h : ∀ v, (t.eval mode env).1 = .ok v → v = .unit) :
    evalAll mode [t] env = t.eval mode env := by
  rw [evalAll]
  generalize t.eval mode env = r at h
  obtain ⟨x, env'⟩ := r
  cases x with
  | error f => rfl
  | ok v => rw [h v rfl]; rfl

end Tree

section

variable {mode : Division}

/-- An assignment either faults with its value, and nothing is changed, or binds its name. -/
theorem evalAll_assignment (a : Assignment) (rest : List Tree) (env : Env) :
    Tree.evalAll mode (a.toTree :: rest) env =
      match a.value.firstFault mode env with
      | none => Tree.evalAll mode rest (env.set a.name (Int64.ofInt (a.value.exact mode env)))
      | some f => (.error f, env) := by
  rw [Tree.evalAll, Assignment.toTree, Tree.eval, Expr.eval_toTree]
  cases a.value.firstFault mode env <;> rfl

mutual

theorem Stmt.eval_toTree : ∀ (s : Stmt) (env : Env),
    s.toTree.eval mode env = Tree.evalAll mode (s.assignments.map Assignment.toTree) env
  | .block p b, env => by
    rw [Stmt.toTree, Tree.eval, b.evalAll_toTrees env, Stmt.assignments]
  | .assign x q e p, env => by
    refine (Tree.evalAll_singleton _ env fun v => ?_).symm
    rw [Stmt.toTree, Tree.eval, Expr.eval_toTree]
    cases e.firstFault mode env with
    | none => intro h; cases h; rfl
    | some f => intro h; cases h
  | .empty p, env => rfl

theorem Stmts.evalAll_toTrees : ∀ (b : Stmts) (env : Env),
    Tree.evalAll mode b.toTrees env =
      Tree.evalAll mode (b.assignments.map Assignment.toTree) env
  | .one s, env => by
    have hs := s.eval_toTree env
    rw [Stmts.toTrees, Stmts.assignments, Tree.evalAll_singleton, hs]
    intro v hv
    rw [hs] at hv
    exact Tree.evalAll_unit _ env hv
  | .cons s b, env => by
    rw [Stmts.toTrees, Tree.evalAll, s.eval_toTree env, Stmts.assignments, List.map_append,
      Tree.evalAll_append]
    simp only [b.evalAll_toTrees]

end

end

mutual

theorem Stmt.events_eq : ∀ s : Stmt, s.events = s.assignments.flatMap Assignment.events
  | .block p b => by rw [Stmt.events, Stmt.assignments, b.events_eq]
  | .assign x q e p => by simp [Stmt.events, Stmt.assignments, Assignment.events_eq]
  | .empty p => rfl

theorem Stmts.events_eq : ∀ b : Stmts, b.events = b.assignments.flatMap Assignment.events
  | .one s => by rw [Stmts.events, Stmts.assignments, s.events_eq]
  | .cons s b => by
    rw [Stmts.events, Stmts.assignments, s.events_eq, b.events_eq, List.flatMap_append]

end

theorem Program.eval_toTree (p : Program) (mode : Division) (env : Env) :
    p.toTree.eval mode env = Tree.evalAll mode (p.assignments.map Assignment.toTree) env := by
  rw [Program.toTree, Tree.eval, p.body.evalAll_toTrees, Program.assignments]

/-- What an engine does with a program it accepts: it executes the assignments. -/
theorem Engine.run_of_parse {e : Engine} {t : Text} {p : Program} (h : e.parse t = .ok p) :
    let r := Tree.evalAll e.division (p.assignments.map Assignment.toTree) Env.empty
    e.run t = .ran p r.2 r.fault? := by
  simp only [Engine.run, h, p.eval_toTree]
  generalize Tree.evalAll _ _ _ = r
  obtain ⟨x, env⟩ := r
  cases x <;> rfl

/-- A run that succeeds has accepted its text and evaluated the program to the end. -/
theorem Engine.run_eq_ran_none {e : Engine} {t : Text} {p : Program} {env : Env} :
    e.run t = .ran p env none ↔
      e.parse t = .ok p ∧ p.toTree.eval e.division Env.empty = (.ok .unit, env) := by
  constructor
  · intro h
    cases hp : e.parse t with
    | error r => simp [Engine.run, hp] at h
    | ok p' =>
      have hrun := Engine.run_of_parse hp
      rw [h, ← p'.eval_toTree] at hrun
      obtain ⟨rfl, henv, hfault⟩ := RunResult.ran.inj hrun
      refine ⟨rfl, ?_⟩
      generalize hr : p.toTree.eval e.division Env.empty = r at henv hfault
      obtain ⟨x, env'⟩ := r
      cases x with
      | error f => cases hfault
      | ok v =>
        rw [p.eval_toTree] at hr
        rw [Tree.evalAll_unit _ _ (congrArg Prod.fst hr), henv]
  · rintro ⟨hp, heval⟩
    simp only [Engine.run, hp, heval]

end BlockCalc
