import BlockCalc.Tree
import BlockCalc.Proofs.Places

/-!
# BlockCalc.Proofs.TreePlaces

Trees of any shape up to the places of their nodes, as `Places` has it for those of the grammar.
What differs from a tree of the grammar in places at most is one itself (`Program.exists_of_bare`).
-/

namespace BlockCalc

mutual

/-- The tree with every node at the same place. -/
def Tree.bare : Tree → Tree
  | .missing => .missing
  | .int v _ => .int v .nowhere
  | .var x _ => .var x .nowhere
  | .unary op e _ => .unary op e.bare .nowhere
  | .binary op l r _ => .binary op l.bare r.bare .nowhere
  | .assign x _ e _ => .assign x .nowhere e.bare .nowhere
  | .noop _ => .noop .nowhere
  | .compound body _ => .compound (bareAll body) .nowhere
  | .program body _ => .program (bareAll body) .nowhere

def Tree.bareAll : List Tree → List Tree
  | [] => []
  | t :: rest => t.bare :: bareAll rest

end

theorem Expr.bare_toTree (e : Expr) : e.toTree.bare = e.bare.toTree := by
  induction e with
  | int v p => rfl
  | var x p => rfl
  | unary s e p ih => simp only [toTree, Tree.bare, bare, ih]
  | binary op l r p ihl ihr => simp only [toTree, Tree.bare, bare, ihl, ihr]

mutual

theorem Stmt.bare_toTree : ∀ s : Stmt, s.toTree.bare = s.bare.toTree
  | .block p b => by simp only [Stmt.toTree, Tree.bare, Stmt.bare, b.bareAll_toTrees]
  | .assign x p e q => by simp only [Stmt.toTree, Tree.bare, Stmt.bare, e.bare_toTree]
  | .empty p => rfl

theorem Stmts.bareAll_toTrees : ∀ b : Stmts, Tree.bareAll b.toTrees = b.bare.toTrees
  | .one s => by simp only [Stmts.toTrees, Tree.bareAll, Stmts.bare, s.bare_toTree]
  | .cons s b => by
    simp only [Stmts.toTrees, Tree.bareAll, Stmts.bare, s.bare_toTree, b.bareAll_toTrees]

end

theorem Program.bare_toTree (p : Program) : p.toTree.bare = p.bare.toTree := by
  simp only [Program.toTree, Tree.bare, Program.bare, p.body.bareAll_toTrees]

/-! ## Trees that are of the grammar up to places -/

theorem Expr.exists_of_bare (e : Expr) :
    ∀ {t : Tree}, t.bare = e.toTree → ∃ e' : Expr, e'.toTree = t ∧ e'.bare = e := by
  induction e with
  | int v p =>
    intro t h
    cases t <;> simp only [Tree.bare, toTree] at h <;> cases h
    exact ⟨.int v _, rfl, rfl⟩
  | var x p =>
    intro t h
    cases t <;> simp only [Tree.bare, toTree] at h <;> cases h
    exact ⟨.var x _, rfl, rfl⟩
  | unary s e p ih =>
    intro t h
    cases t <;> simp only [Tree.bare, toTree, Tree.unary.injEq, reduceCtorEq] at h
    obtain ⟨rfl, he, rfl⟩ := h
    obtain ⟨e', rfl, rfl⟩ := ih he
    exact ⟨.unary s e' _, rfl, rfl⟩
  | binary op l r p ihl ihr =>
    intro t h
    cases t <;> simp only [Tree.bare, toTree, Tree.binary.injEq, reduceCtorEq] at h
    obtain ⟨rfl, hl, hr, rfl⟩ := h
    obtain ⟨l', rfl, rfl⟩ := ihl hl
    obtain ⟨r', rfl, rfl⟩ := ihr hr
    exact ⟨.binary op l' r' _, rfl, rfl⟩

mutual

theorem Stmt.exists_of_bare : ∀ (s : Stmt) {t : Tree}, t.bare = s.toTree →
    ∃ s' : Stmt, s'.toTree = t ∧ s'.bare = s
  | .block p b, t, h => by
    cases t <;> simp only [Tree.bare, Stmt.toTree, Tree.compound.injEq, reduceCtorEq] at h
    obtain ⟨hb, rfl⟩ := h
    obtain ⟨b', rfl, rfl⟩ := b.exists_of_bare hb
    exact ⟨.block _ b', rfl, rfl⟩
  | .assign x p e q, t, h => by
    cases t <;> simp only [Tree.bare, Stmt.toTree, Tree.assign.injEq, reduceCtorEq] at h
    obtain ⟨rfl, rfl, he, rfl⟩ := h
    obtain ⟨e', rfl, rfl⟩ := e.exists_of_bare he
    exact ⟨.assign _ _ e' _, rfl, rfl⟩
  | .empty p, t, h => by
    cases t <;> simp only [Tree.bare, Stmt.toTree] at h <;> cases h
    exact ⟨.empty _, rfl, rfl⟩

theorem Stmts.exists_of_bare : ∀ (b : Stmts) {ts : List Tree}, Tree.bareAll ts = b.toTrees →
    ∃ b' : Stmts, b'.toTrees = ts ∧ b'.bare = b
  | .one s, [t], h => by
    simp only [Tree.bareAll, Stmts.toTrees, List.cons.injEq, and_true] at h
    obtain ⟨s', rfl, rfl⟩ := s.exists_of_bare h
    exact ⟨.one s', rfl, rfl⟩
  | .cons s b, t :: ts, h => by
    simp only [Tree.bareAll, Stmts.toTrees, List.cons.injEq] at h
    obtain ⟨s', rfl, rfl⟩ := s.exists_of_bare h.1
    obtain ⟨b', rfl, rfl⟩ := b.exists_of_bare h.2
    exact ⟨.cons s' b', rfl, rfl⟩
  | .one s, [], h => by simp [Tree.bareAll, Stmts.toTrees] at h
  | .one s, t :: t' :: ts, h => by simp [Tree.bareAll, Stmts.toTrees] at h
  | .cons s b, [], h => by simp [Tree.bareAll, Stmts.toTrees] at h

end

theorem Program.exists_of_bare {q : Program} {t : Tree} (h : t.bare = q.toTree.bare) :
    ∃ p : Program, p.toTree = t ∧ p.bare = q.bare := by
  rw [q.bare_toTree, Program.toTree] at h
  cases t <;> simp only [Tree.bare, Tree.program.injEq, reduceCtorEq] at h
  obtain ⟨b', rfl, hb⟩ := Stmts.exists_of_bare _ h.1
  exact ⟨⟨_, b'⟩, rfl, by rw [Program.bare, hb, Program.bare]⟩

end BlockCalc
