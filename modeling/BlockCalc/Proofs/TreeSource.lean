import BlockCalc.Proofs.Earliest
import BlockCalc.Proofs.Layout
import BlockCalc.Proofs.TreePlaces

/-!
# BlockCalc.Proofs.TreeSource

Reading the canonical source of a tree, however the tree was built. Where the depth allows it, the
tree comes back up to places; otherwise the text is left for its nesting
(`Engine.parse_layoutProgram`).

`Tree.depth` counts on the tree what the source will nest: blocks, signs, and the parentheses that
the precedence of operators asks for.
-/

namespace BlockCalc

open Grammar

namespace Tree

/-! ## Programs and their depth -/

/-- An expression that can be written. -/
def IsExpression : Tree → Prop
  | .int v _ => 0 ≤ v.toInt
  | .var x _ => IsName x
  | .unary op e _ => op ∈ [TokenKind.plus, .minus] ∧ e.IsExpression
  | .binary op l r _ =>
    op ∈ [TokenKind.plus, .minus, .star, .slash] ∧ l.IsExpression ∧ r.IsExpression
  | _ => False

mutual

/-- A statement that can be written: no block in it is without statements. -/
def IsStatement : Tree → Prop
  | .compound body _ => body ≠ [] ∧ AreStatements body
  | .assign x _ e _ => IsName x ∧ e.IsExpression
  | .noop _ => True
  | _ => False

def AreStatements : List Tree → Prop
  | [] => True
  | s :: rest => s.IsStatement ∧ AreStatements rest

end

def IsProgram : Tree → Prop
  | .program body _ => body ≠ [] ∧ AreStatements body
  | _ => False

/-- How many signs and parentheses stand around a point of an expression at most, where operators
that bind looser than `least` are put in parentheses. A sign takes no operator without them. -/
def formulaDepth : Tree → Nat → Nat
  | .unary _ e _, _ => e.formulaDepth 2 + 1
  | .binary op l r _, least =>
    let prec := op.precedence?.getD 0
    let n := max (l.formulaDepth prec) (r.formulaDepth (prec + 1))
    if prec < least then n + 1 else n
  | _, _ => 0

mutual

/-- How many blocks, signs and parentheses stand around a point of a program or statement at
most. -/
def depth : Tree → Nat
  | .program body _ => depthAll body + 1
  | .compound body _ => depthAll body + 1
  | .assign _ _ e _ => e.formulaDepth 0
  | _ => 0

def depthAll : List Tree → Nat
  | [] => 0
  | s :: rest => max s.depth (depthAll rest)

end

/-! ## They are the trees of the grammar -/

theorem exists_sign {op : TokenKind} (h : op ∈ [TokenKind.plus, .minus]) :
    ∃ s : Sign, s.kind = op := by
  simp only [List.mem_cons, List.not_mem_nil, or_false] at h
  rcases h with rfl | rfl
  · exact ⟨.plus, rfl⟩
  · exact ⟨.minus, rfl⟩

theorem exists_binaryOp {op : TokenKind} (h : op ∈ [TokenKind.plus, .minus, .star, .slash]) :
    ∃ o : BinaryOp, o.kind = op := by
  simp only [List.mem_cons, List.not_mem_nil, or_false] at h
  rcases h with rfl | rfl | rfl | rfl
  · exact ⟨.add, rfl⟩
  · exact ⟨.sub, rfl⟩
  · exact ⟨.mul, rfl⟩
  · exact ⟨.div, rfl⟩

theorem IsExpression.exists_expr : ∀ {t : Tree}, t.IsExpression →
    ∃ e : Expr, e.toTree = t ∧ e.WellFormed
  | .int v p, h => ⟨.int v p, rfl, h⟩
  | .var x p, h => ⟨.var x p, rfl, h⟩
  | .unary op e p, h => by
    obtain ⟨s, rfl⟩ := exists_sign h.1
    obtain ⟨e', rfl, he⟩ := h.2.exists_expr
    exact ⟨.unary s e' p, rfl, he⟩
  | .binary op l r p, h => by
    obtain ⟨o, rfl⟩ := exists_binaryOp h.1
    obtain ⟨l', rfl, hl⟩ := h.2.1.exists_expr
    obtain ⟨r', rfl, hr⟩ := h.2.2.exists_expr
    exact ⟨.binary o l' r' p, rfl, hl, hr⟩

mutual

theorem IsStatement.exists_stmt : ∀ {t : Tree}, t.IsStatement →
    ∃ s : Stmt, s.toTree = t ∧ s.WellFormed
  | .compound body p, h => by
    obtain ⟨b, rfl, hb⟩ := AreStatements.exists_stmts h.1 h.2
    exact ⟨.block p b, rfl, hb⟩
  | .assign x p e q, h => by
    obtain ⟨e', rfl, he⟩ := h.2.exists_expr
    exact ⟨.assign x p e' q, rfl, h.1, he⟩
  | .noop p, _ => ⟨.empty p, rfl, trivial⟩

theorem AreStatements.exists_stmts : ∀ {ts : List Tree}, ts ≠ [] → AreStatements ts →
    ∃ b : Stmts, b.toTrees = ts ∧ b.WellFormed
  | [], hne, _ => absurd rfl hne
  | [t], _, h => by
    obtain ⟨s, rfl, hs⟩ := h.1.exists_stmt
    exact ⟨.one s, rfl, hs⟩
  | t :: t' :: rest, _, h => by
    obtain ⟨s, rfl, hs⟩ := h.1.exists_stmt
    obtain ⟨b, hb, hwf⟩ := AreStatements.exists_stmts (List.cons_ne_nil t' rest) h.2
    exact ⟨.cons s b, by rw [Stmts.toTrees, hb], hs, hwf⟩

end

end Tree

theorem Expr.isExpression_toTree : ∀ {e : Expr}, e.WellFormed → e.toTree.IsExpression
  | .int v p, h => h
  | .var x p, h => h
  | .unary s e p, h => ⟨by cases s <;> decide, e.isExpression_toTree h⟩
  | .binary op l r p, h =>
    ⟨by cases op <;> decide, l.isExpression_toTree h.1, r.isExpression_toTree h.2⟩

mutual

theorem Stmt.isStatement_toTree : ∀ {s : Stmt}, s.WellFormed → s.toTree.IsStatement
  | .block _ b, h => ⟨List.isEmpty_eq_false_iff.1 b.toTrees_ne_nil, b.areStatements_toTrees h⟩
  | .assign _ _ e _, h => ⟨h.1, e.isExpression_toTree h.2⟩
  | .empty _, _ => trivial

theorem Stmts.areStatements_toTrees : ∀ {b : Stmts}, b.WellFormed → Tree.AreStatements b.toTrees
  | .one s, h => ⟨s.isStatement_toTree h, trivial⟩
  | .cons s b, h => ⟨s.isStatement_toTree h.1, b.areStatements_toTrees h.2⟩

end

/-- The tree of a program that an engine accepts is a program tree: no part is missing, operators
are operators, and statements and expressions stand where they belong. -/
theorem Engine.isProgram_of_parse {e : Engine} {t : Text} {p : Program} (h : e.parse t = .ok p) :
    p.toTree.IsProgram :=
  ⟨List.isEmpty_eq_false_iff.1 p.body.toTrees_ne_nil,
    p.body.areStatements_toTrees (Program.wellFormed_of_parse h).1⟩

theorem Engine.isExpression_of_parse {e : Engine} {t : Text} {x : Expr}
    (h : e.parseExpression t = .ok x) : x.toTree.IsExpression := by
  obtain ⟨ts, htokens, n, _, hd⟩ := Expr.parse_eq_ok_iff.1 h
  have hproper := (spells_iff.2 ⟨ts, htokens, rfl⟩).proper
  exact x.isExpression_toTree (hd.wellFormed hproper)

/-! ## The depth is the nesting of the canonical lexemes -/

/-- How tightly an operator has to bind in a slot, as a number. -/
def Grammar.Slot.least : Slot → Nat
  | .chain .sum => 0
  | .chain .product => 1
  | .factor => 2

theorem BinaryOp.precedence_kind (op : BinaryOp) :
    op.kind.precedence? = some (Slot.chain op.level).least := by
  cases op <;> rfl

theorem Grammar.Level.least_slot (k : Level) : k.slot.least = (Slot.chain k).least + 1 := by
  cases k <;> rfl

theorem Grammar.Slot.admits_eq (slot : Slot) (op : BinaryOp) :
    slot.admits op = !decide ((Slot.chain op.level).least < slot.least) := by
  rcases slot with _ | _ | _ <;> cases op <;> rfl

theorem Expr.formulaDepth_toTree (e : Expr) :
    ∀ slot : Slot, e.toTree.formulaDepth slot.least = e.nesting slot := by
  induction e with
  | int v p => intro slot; rfl
  | var x p => intro slot; rfl
  | unary s e p ih => intro slot; exact congrArg (· + 1) (ih .factor)
  | binary op l r p ihl ihr =>
    intro slot
    simp only [toTree, Tree.formulaDepth, nesting, op.precedence_kind, Option.getD_some,
      ← Level.least_slot, ihl, ihr, slot.admits_eq]
    by_cases h : (Slot.chain op.level).least < slot.least <;> simp [h]

mutual

theorem Stmt.depth_toTree : ∀ s : Stmt, s.toTree.depth = s.nesting
  | .block p b => by simp only [Stmt.toTree, Tree.depth, Stmt.nesting, b.depthAll_toTrees]
  | .assign x p e q => by
    simp only [Stmt.toTree, Tree.depth, Stmt.nesting]
    exact e.formulaDepth_toTree (.chain .sum)
  | .empty p => rfl

theorem Stmts.depthAll_toTrees : ∀ b : Stmts, Tree.depthAll b.toTrees = b.nesting
  | .one s => by
    simp only [Stmts.toTrees, Tree.depthAll, Stmts.nesting, s.depth_toTree, Nat.max_zero]
  | .cons s b => by
    simp only [Stmts.toTrees, Tree.depthAll, Stmts.nesting, s.depth_toTree, b.depthAll_toTrees]

end

theorem Program.depth_toTree (p : Program) : p.toTree.depth = p.nesting := by
  simp only [Program.toTree, Tree.depth, Program.nesting, p.body.depthAll_toTrees]

/-! ## Reading the source again -/

theorem Program.parse_mono {limit limit' : Nat} {t : Text} {p : Program} (hlimit : limit ≤ limit')
    (h : Program.parse limit t = .ok p) : Program.parse limit' t = .ok p := by
  obtain ⟨ts, hts, n, hn, hd⟩ := Program.parse_eq_ok_iff.1 h
  exact Program.parse_eq_ok_iff.2 ⟨ts, hts, n, by omega, hd⟩

/-- Canonical source that nests deeper than the limit is left for that. -/
theorem Program.parse_layout_tooDeep {p : Program} {limit : Nat} (hp : p.body.WellFormed)
    (hn : limit - 1 + 1 < p.nesting) :
    ∃ e, Program.parse limit (Text.ofString p.layout) = .error (.parse e) ∧
      e.fault = .tooDeep limit := by
  -- with more room the same text is read, so the two readings go in step to their end
  obtain ⟨p', hp', hbare⟩ : ∃ p', Program.parse p.nesting (Text.ofString p.layout) = .ok p' ∧
      p'.bare = p.bare := Program.parse_layout hp (by omega)
  have hlimit : limit ≤ p.nesting := by omega
  cases h : Program.parse limit (Text.ofString p.layout) with
  | ok q =>
    have hq := Program.parse_mono hlimit h
    rw [hp'] at hq
    cases hq
    have hnesting := (Program.wellFormed_of_parse h).2
    rw [← p'.nesting_bare, hbare, p.nesting_bare] at hnesting
    omega
  | error e =>
    obtain ⟨ts, ⟨q, hq⟩, n, hn', hd⟩ := Program.parse_eq_ok_iff.1 hp'
    have halike : Reader.Alike none (Scan.ofText (Text.ofString p.layout)).tokens ts := by
      rw [hq]
      exact Reader.alike_refl ts
    rcases Program.parses.lockstep h ⟨p', hd⟩ hn' hlimit halike fun _ => ⟨q, by rw [hq]⟩ with
      ⟨_, t, rfl⟩ | ⟨_, ⟨vs, hvs, _⟩, _⟩
    · exact ⟨_, rfl, rfl⟩
    · cases hvs

theorem Engine.one_le_maxDepth {o : EngineOptions} {e : Engine} (h : Engine.ofOptions o = .ok e) :
    1 ≤ e.maxDepth := by
  have hdepth : 1 ≤ (if o.maxDepth ≤ 0 then defaultDepth else o.maxDepth.toNat) := by
    split
    · decide
    · omega
  unfold Engine.ofOptions at h
  simp only at h
  split at h
  · cases h; exact hdepth
  · split at h
    · cases h; exact hdepth
    · cases h

/-- The canonical source of a program tree is read as that tree, up to places, by every engine that
allows its depth. Every other engine leaves it for its nesting. -/
theorem Engine.parse_layoutProgram {o : EngineOptions} {e : Engine}
    (he : Engine.ofOptions o = .ok e) {body : List Tree} {pos : Position}
    (ht : (Tree.program body pos).IsProgram) :
    ((Tree.program body pos).depth ≤ e.maxDepth →
      ∃ p, e.parse (Text.ofString (Tree.layoutProgram body)) = .ok p ∧
        p.toTree.bare = (Tree.program body pos).bare) ∧
    (e.maxDepth < (Tree.program body pos).depth →
      ∃ err, e.parse (Text.ofString (Tree.layoutProgram body)) = .error (.parse err) ∧
        err.fault = .tooDeep e.maxDepth) := by
  have hone := Engine.one_le_maxDepth he
  obtain ⟨b, rfl, hb⟩ := Tree.AreStatements.exists_stmts ht.1 ht.2
  have hdepth := Program.depth_toTree ⟨pos, b⟩
  rw [Program.toTree] at hdepth
  rw [hdepth]
  constructor
  · intro hn
    obtain ⟨p, hp, hbare⟩ : ∃ p, e.parse (Text.ofString (Program.layout ⟨pos, b⟩)) = .ok p ∧
        p.bare = Program.bare ⟨pos, b⟩ := Program.parse_layout hb (by omega)
    refine ⟨p, hp, ?_⟩
    rw [p.bare_toTree, hbare, ← Program.bare_toTree, Program.toTree]
  · intro hn
    exact Program.parse_layout_tooDeep (p := ⟨pos, b⟩) hb (by omega)

/-- The sum stands in a block and in parentheses. One level less does not do. -/
theorem Engine.parse_layoutProgram_sum :
    ∃ body : List Tree, Tree.layoutProgram body = "BEGIN\n  x := (1 + 2) * x;\nEND.\n" ∧
      (∃ p, (⟨2, .truncate⟩ : Engine).parse (Text.ofString (Tree.layoutProgram body)) = .ok p ∧
        p.toTree.bare = (Tree.program body .nowhere).bare) ∧
      ∃ err, (⟨1, .truncate⟩ : Engine).parse (Text.ofString (Tree.layoutProgram body)) =
        .error (.parse err) ∧ err.fault = .tooDeep 1 := by
  let sum : Tree := .binary .plus (.int 1 .nowhere) (.int 2 .nowhere) .nowhere
  let value : Tree := .binary .star sum (.var "x" .nowhere) .nowhere
  let body : List Tree := [.assign "x" .nowhere value .nowhere, .noop .nowhere]
  have hx : IsName "x" := ⟨⟨.char 'x', [], by decide, by decide, nofun⟩, by decide, by decide⟩
  have hsum : sum.IsExpression :=
    ⟨by decide, show 0 ≤ Int64.toInt 1 by decide, show 0 ≤ Int64.toInt 2 by decide⟩
  have hbody : (Tree.program body .nowhere).IsProgram :=
    ⟨nofun, ⟨hx, by decide, hsum, hx⟩, trivial, trivial⟩
  exact ⟨body, by decide +kernel,
    (Engine.parse_layoutProgram (o := ⟨2, []⟩) rfl hbody).1 (by decide),
    (Engine.parse_layoutProgram (o := ⟨1, []⟩) rfl hbody).2 (by decide)⟩

end BlockCalc
