import BlockCalc.Proofs.DeadStores
import BlockCalc.Proofs.TreeSource

/-!
# BlockCalc.Proofs.Faults

How evaluation ends. A program is executed assignment by assignment (`Executes`), whatever blocks
its assignments stand in, and the first value that faults ends all of these blocks at once
(`evalAll_cases`). So the environment after a fault is the one that the assignments before it leave
as a program of their own.

The tree of an accepted text is a program tree or an expression tree (`Engine.isProgram_of_parse`,
`Engine.isExpression_of_parse`), and such a tree faults by an unbound variable or in arithmetic only
(`Tree.IsProgram.sound_eval`). The other faults are left to trees made by hand.
-/

namespace BlockCalc

/-! ## Assignments one after another -/

/-- The assignments are executed one after another: each value is computed where the assignments
before have led, and is then bound. -/
inductive Executes (mode : Division) : Env → List Assignment → Env → Prop where
  | nil {env : Env} : Executes mode env [] env
  | cons {env env' : Env} {a : Assignment} {as : List Assignment} {v : Int64} :
      a.value.toTree.eval mode env = (.ok (.int v), env) →
      Executes mode (env.set a.name v) as env' → Executes mode env (a :: as) env'

section

variable {mode : Division} {env env' : Env}

theorem Expr.eval_cases (e : Expr) (mode : Division) (env : Env) :
    (∃ v, e.toTree.eval mode env = (.ok (.int v), env)) ∨
      ∃ f, e.toTree.eval mode env = (.error f, env) := by
  rw [eval_toTree]
  cases e.firstFault mode env with
  | none => exact .inl ⟨_, rfl⟩
  | some f => exact .inr ⟨f, rfl⟩

theorem Assignment.evalAll_ok {a : Assignment} {v : Int64}
    (h : a.value.toTree.eval mode env = (.ok (.int v), env)) (rest : List Tree) :
    Tree.evalAll mode (a.toTree :: rest) env = Tree.evalAll mode rest (env.set a.name v) := by
  rw [Tree.evalAll, Assignment.toTree, Tree.eval, h]
  rfl

theorem Assignment.evalAll_error {a : Assignment} {f : EvalError}
    (h : a.value.toTree.eval mode env = (.error f, env)) (rest : List Tree) :
    Tree.evalAll mode (a.toTree :: rest) env = (.error f, env) := by
  rw [Tree.evalAll, Assignment.toTree, Tree.eval, h]
  rfl

theorem Executes.evalAll {as : List Assignment} (h : Executes mode env as env') :
    Tree.evalAll mode (as.map Assignment.toTree) env = (.ok .unit, env') := by
  induction h with
  | nil => rfl
  | cons hvalue _ ih => rw [List.map_cons, Assignment.evalAll_ok hvalue, ih]

/-- Either all assignments are executed, or those before the first value that faults. -/
theorem evalAll_cases (mode : Division) (as : List Assignment) : ∀ env : Env,
    (∃ env', Executes mode env as env' ∧
      Tree.evalAll mode (as.map Assignment.toTree) env = (.ok .unit, env')) ∨
    ∃ before a after f env', as = before ++ a :: after ∧ Executes mode env before env' ∧
      a.value.toTree.eval mode env' = (.error f, env') ∧
      Tree.evalAll mode (as.map Assignment.toTree) env = (.error f, env') := by
  induction as with
  | nil =>
    intro env
    exact .inl ⟨env, .nil, rfl⟩
  | cons a as ih =>
    intro env
    rw [List.map_cons]
    rcases a.value.eval_cases mode env with ⟨v, hvalue⟩ | ⟨f, hvalue⟩
    · rw [Assignment.evalAll_ok hvalue]
      rcases ih (env.set a.name v) with ⟨env', hexec, hall⟩ |
          ⟨before, b, after, f, env', rfl, hexec, hfault, hall⟩
      · exact .inl ⟨env', .cons hvalue hexec, hall⟩
      · exact .inr ⟨a :: before, b, after, f, env', rfl, .cons hvalue hexec, hfault, hall⟩
    · exact .inr ⟨[], a, as, f, env, rfl, .nil, hvalue, Assignment.evalAll_error hvalue _⟩

end

/-! ## The program of some assignments -/

def Assignment.toStmt (a : Assignment) : Stmt := .assign a.name a.namePos a.value a.pos

/-- The assignments as the statements of one block, with an empty one at the end. -/
def Stmts.ofAssignments : List Assignment → Stmts
  | [] => .one (.empty .nowhere)
  | a :: as => .cons a.toStmt (ofAssignments as)

/-- The program of the given assignments alone. -/
def Program.ofAssignments (as : List Assignment) : Program := ⟨.nowhere, .ofAssignments as⟩

theorem Program.assignments_ofAssignments (as : List Assignment) :
    (Program.ofAssignments as).assignments = as := by
  rw [Program.assignments, Program.ofAssignments]
  induction as with
  | nil => rfl
  | cons a as ih => rw [Stmts.ofAssignments, Stmts.assignments, ih]; rfl

/-- An assignment that can be written within `n` levels. -/
structure Assignment.Fits (n : Nat) (a : Assignment) : Prop where
  name : IsName a.name
  value : a.value.WellFormed
  nesting : a.value.nesting (.chain .sum) ≤ n

mutual

theorem Stmt.fits_assignments : ∀ {s : Stmt} {n : Nat}, s.WellFormed → s.nesting ≤ n →
    ∀ a ∈ s.assignments, a.Fits n
  | .block p b, n, h, hn => Stmts.fits_assignments (b := b) h (Nat.le_of_succ_le hn)
  | .assign x q e p, n, ⟨hx, he⟩, hn => by
    intro a ha
    rw [List.mem_singleton.1 ha]
    exact ⟨hx, he, hn⟩
  | .empty p, n, _, _ => nofun

theorem Stmts.fits_assignments : ∀ {b : Stmts} {n : Nat}, b.WellFormed → b.nesting ≤ n →
    ∀ a ∈ b.assignments, a.Fits n
  | .one s, n, h, hn => Stmt.fits_assignments (s := s) h hn
  | .cons s b, n, ⟨hs, hb⟩, hn => by
    obtain ⟨hsn, hbn⟩ := Nat.max_le.1 hn
    intro a ha
    rcases List.mem_append.1 ha with ha | ha
    · exact Stmt.fits_assignments hs hsn a ha
    · exact Stmts.fits_assignments hb hbn a ha

end

theorem Stmts.wellFormed_ofAssignments {n : Nat} {as : List Assignment}
    (h : ∀ a ∈ as, a.Fits n) :
    (Stmts.ofAssignments as).WellFormed ∧ (Stmts.ofAssignments as).nesting ≤ n := by
  induction as with
  | nil => exact ⟨trivial, Nat.zero_le _⟩
  | cons a as ih =>
    obtain ⟨ha, has⟩ := List.forall_mem_cons.1 h
    obtain ⟨hwf, hn⟩ := ih has
    exact ⟨⟨⟨ha.name, ha.value⟩, hwf⟩, Nat.max_le.2 ⟨ha.nesting, hn⟩⟩

/-- Some of the assignments of an accepted program, written as a program of their own, are accepted
by the same engine. If they can be executed to the end, its run does that. -/
theorem Engine.run_ofAssignments {e : Engine} {t : Text} {p : Program} {env : Env}
    {as : List Assignment} (h : e.parse t = .ok p) (hsub : as ⊆ p.assignments)
    (hexec : Executes e.division Env.empty as env) :
    ∃ p', e.run (Text.ofString (Program.ofAssignments as).layout) = .ran p' env none ∧
      p'.bare = (Program.ofAssignments as).bare := by
  obtain ⟨hwf, hn⟩ := Program.wellFormed_of_parse h
  have hfits : ∀ a ∈ as, a.Fits p.body.nesting := fun a ha =>
    Stmts.fits_assignments hwf (Nat.le_refl _) a (hsub ha)
  obtain ⟨hwf', hless⟩ := Stmts.wellFormed_ofAssignments hfits
  obtain ⟨p', hparse, hbare⟩ := Program.parse_layout (p := .ofAssignments as) hwf'
    (Nat.le_trans (Nat.succ_le_succ hless) hn)
  have heval := hexec.evalAll
  rw [← Program.assignments_ofAssignments as, ← Program.eval_toTree] at heval
  have hcongr := Program.eval_congr hbare e.division Env.empty
  rw [heval] at hcongr
  exact ⟨p', Engine.run_eq_ran_none.2 ⟨hparse, Evaluated.eq_of_bare_eq_ok hcongr⟩, hbare⟩

/-! ## Where a run stops -/

/-- A run executes the assignments of the program in the order of the text. It succeeds if it comes
to the end of them. Otherwise it fails with the fault of a value, and leaves the environment in
which that value was computed: the one that the assignments before it leave as a program of their
own, which succeeds. -/
theorem Engine.run_executes {e : Engine} {t : Text} {p : Program} (h : e.parse t = .ok p) :
    (p.assignments.map (·.namePos)).Pairwise Position.Before ∧
    ∃ env fault, e.run t = .ran p env fault ∧
      (fault = none → Executes e.division Env.empty p.assignments env) ∧
      ∀ f, fault = some f → ∃ before a after, p.assignments = before ++ a :: after ∧
        Executes e.division Env.empty before env ∧
        (∃ p', e.run (Text.ofString (Program.ofAssignments before).layout) = .ran p' env none ∧
          p'.bare = (Program.ofAssignments before).bare) ∧
        a.value.toTree.eval e.division env = (.error f, env) := by
  refine ⟨Program.ascending_namePos h, ?_⟩
  have hrun := Engine.run_of_parse h
  rcases evalAll_cases e.division p.assignments Env.empty with ⟨env, hexec, hall⟩ |
      ⟨before, a, after, f, env, hsplit, hexec, hfault, hall⟩
  · rw [hall] at hrun
    exact ⟨env, none, hrun, fun _ => hexec, nofun⟩
  · rw [hall] at hrun
    refine ⟨env, some f, hrun, nofun, ?_⟩
    rintro f' ⟨⟩
    have hsub : before ⊆ p.assignments := by
      rw [hsplit]
      exact List.subset_append_left _ _
    exact ⟨before, a, after, hsplit, hexec, Engine.run_ofAssignments h hsub hexec, hfault⟩

/-- The fault is in the third block. What stands before it is kept, and nothing after it is run. -/
theorem Engine.run_executes_nested :
    let e : Engine := ⟨4, .floor⟩
    let t := Text.ofString
      "BEGIN x := 1; BEGIN y := x + 1; BEGIN x := y / (x - 1) END; y := 9 END; x := 8 END."
    ∃ p env before a after, e.parse t = .ok p ∧ env.bindings = [("x", 1), ("y", 2)] ∧
      e.run t = .ran p env (some (.arithmetic .slash .divisionByZero ⟨1, 46⟩)) ∧
      p.assignments = before ++ a :: after ∧ Executes .floor Env.empty before env ∧
      a.value.toTree.eval .floor env =
        (.error (.arithmetic .slash .divisionByZero ⟨1, 46⟩), env) := by
  intro e t
  have h : (e.parse t).toOption.map (fun p =>
      let r := Tree.evalAll .floor (p.assignments.map Assignment.toTree) Env.empty
      (r.2.bindings, r.fault?)) =
        some ([("x", 1), ("y", 2)], some (.arithmetic .slash .divisionByZero ⟨1, 46⟩)) := by
    decide +kernel
  obtain ⟨p, hp, hr⟩ := exists_of_toOption_map h
  obtain ⟨hbindings, hfault⟩ := Prod.mk.inj hr
  have hrun := Engine.run_of_parse hp
  simp only [e, hfault] at hrun
  obtain ⟨-, env, fault, hrun', -, hstop⟩ := Engine.run_executes hp
  obtain ⟨-, henv, rfl⟩ := RunResult.ran.inj (hrun'.symm.trans hrun)
  obtain ⟨before, a, after, hsplit, hexec, -, hvalue⟩ := hstop _ rfl
  exact ⟨p, env, before, a, after, hp, henv ▸ hbindings, hrun', hsplit, hexec, hvalue⟩

/-! ## The names that a run binds -/

theorem Env.mem_names_set {env : Env} {x y : String} {v : Int64} (h : y ∈ (env.set x v).names) :
    y = x ∨ y ∈ env.names := by
  obtain ⟨b, hb, rfl⟩ := List.mem_map.1 h
  rcases Env.mem_put hb with rfl | hb
  · exact .inl rfl
  · exact .inr (List.mem_map_of_mem hb)

/-- Whatever is bound after some assignments was bound before them, or is assigned by one. -/
theorem Executes.mem_names {mode : Division} {env env' : Env} {as : List Assignment}
    (h : Executes mode env as env') {x : String} (hx : x ∈ env'.names) :
    x ∈ env.names ∨ ∃ a ∈ as, a.name = x := by
  induction h with
  | nil => exact .inl hx
  | @cons env env' a as v _ _ ih =>
    rcases ih hx with hx | ⟨b, hb, rfl⟩
    · rcases Env.mem_names_set hx with rfl | hx
      · exact .inr ⟨a, List.mem_cons_self, rfl⟩
      · exact .inl hx
    · exact .inr ⟨b, List.mem_cons_of_mem a hb, rfl⟩

/-- Only names are bound by a program that an engine runs, also where it faults. -/
theorem Engine.isName_of_run {e : Engine} {t : Text} {env : Env} (h : (e.run t).env? = some env) :
    ∀ x ∈ env.names, IsName x := by
  intro x hx
  cases hp : e.parse t with
  | error r =>
    rw [Engine.run, hp] at h
    cases h
  | ok p =>
    have hwf := (Program.wellFormed_of_parse hp).1
    rw [Engine.run_of_parse hp] at h
    obtain ⟨before, hexec, hbefore⟩ : ∃ before, Executes e.division Env.empty before env ∧
        ∀ a ∈ before, a ∈ p.assignments := by
      rcases evalAll_cases e.division p.assignments Env.empty with ⟨env', hexec, hall⟩ |
          ⟨before, a, after, f, env', hsplit, hexec, _, hall⟩
      · rw [hall] at h
        cases h
        exact ⟨_, hexec, fun _ ha => ha⟩
      · rw [hall] at h
        cases h
        exact ⟨before, hexec, fun b hb => by rw [hsplit]; exact List.mem_append_left _ hb⟩
    rcases hexec.mem_names hx with hnone | ⟨a, ha, rfl⟩
    · cases hnone
    · exact (Stmts.fits_assignments hwf (Nat.le_refl _) a (hbefore a ha)).name

/-! ## The kinds of failure -/

/-- The faults of expressions: a variable is unbound, or there is no room for a result. -/
inductive EvalError.Ordinary : EvalError → Prop where
  | undefined (name : String) (pos : Position) : Ordinary (.undefined name pos)
  | arithmetic (op : TokenKind) (cause : ArithError) (pos : Position) :
      Ordinary (.arithmetic op cause pos)

namespace Evaluated

/-- The outcome is a value that `P` holds of, or an ordinary fault. -/
def Sound {α : Type} (r : Evaluated α) (P : α → Prop) : Prop :=
  match r.1 with
  | .ok a => P a
  | .error f => f.Ordinary

theorem Sound.andThen {α β : Type} {P : α → Prop} {Q : β → Prop} {r : Evaluated α}
    {next : α → Env → Evaluated β} (h : r.Sound P)
    (hnext : ∀ a env, P a → (next a env).Sound Q) : (r.andThen next).Sound Q := by
  obtain ⟨x, env⟩ := r
  cases x with
  | ok a => exact hnext a env h
  | error f => exact h

end Evaluated

def Value.IsInt (v : Value) : Prop := ∃ n, v = .int n

namespace Tree

variable {mode : Division}

theorem sound_asInt {v : Value} (h : v.IsInt) (p : Position) (env : Env) :
    (asInt p v env).Sound fun _ => True := by
  obtain ⟨n, rfl⟩ := h
  trivial

theorem sound_applyUnary {op : TokenKind} (h : op ∈ [TokenKind.plus, .minus]) (p : Position)
    (n : Int64) (env : Env) : Evaluated.Sound (applyUnary op p n, env) Value.IsInt := by
  obtain ⟨s, rfl⟩ := exists_sign h
  cases s with
  | plus => exact ⟨n, rfl⟩
  | minus =>
    simp only [Evaluated.Sound, Sign.kind, applyUnary]
    cases Arith.neg n with
    | ok r => exact ⟨r, rfl⟩
    | error cause => exact .arithmetic .minus cause p

theorem sound_applyBinary {op : TokenKind} (h : op ∈ [TokenKind.plus, .minus, .star, .slash])
    (p : Position) (a b : Int64) (env : Env) :
    Evaluated.Sound (applyBinary mode op p a b, env) Value.IsInt := by
  obtain ⟨f, hf⟩ : ∃ f, operation? mode op = some f := by
    obtain ⟨o, rfl⟩ := exists_binaryOp h
    cases o <;> exact ⟨_, rfl⟩
  simp only [Evaluated.Sound, applyBinary, hf]
  cases f a b with
  | ok r => exact ⟨r, rfl⟩
  | error cause => exact .arithmetic op cause p

/-- An expression has a number for its value, or an ordinary fault. -/
theorem IsExpression.sound_eval : ∀ {t : Tree}, t.IsExpression → ∀ env : Env,
    (t.eval mode env).Sound Value.IsInt
  | .int v p, _, env => ⟨v, rfl⟩
  | .var x p, _, env => by
    rw [eval]
    cases env.get? x with
    | some v => exact ⟨v, rfl⟩
    | none => exact .undefined x p
  | .unary op e p, h, env => by
    rw [eval]
    refine (h.2.sound_eval env).andThen fun v env hv => ?_
    refine (sound_asInt hv e.pos env).andThen fun n env _ => ?_
    exact sound_applyUnary h.1 p n env
  | .binary op l r p, h, env => by
    rw [eval]
    -- operands come before their operator, each with the check that it has a number
    refine (h.2.1.sound_eval env).andThen fun v env hv => ?_
    refine (sound_asInt hv l.pos env).andThen fun a env _ => ?_
    refine (h.2.2.sound_eval env).andThen fun w env hw => ?_
    refine (sound_asInt hw r.pos env).andThen fun b env _ => ?_
    exact sound_applyBinary h.1 p a b env

mutual

theorem IsStatement.sound_eval : ∀ {t : Tree}, t.IsStatement → ∀ env : Env,
    (t.eval mode env).Sound fun _ => True
  | .compound body p, h, env => by
    rw [eval]
    exact AreStatements.sound_evalAll h.2 env
  | .assign x q e p, h, env => by
    rw [eval]
    refine (h.2.sound_eval env).andThen fun v env hv => ?_
    exact (sound_asInt hv e.pos env).andThen fun n env _ => trivial
  | .noop p, _, env => trivial

theorem AreStatements.sound_evalAll : ∀ {ts : List Tree}, AreStatements ts → ∀ env : Env,
    (evalAll mode ts env).Sound fun _ => True
  | [], _, env => trivial
  | t :: ts, h, env => by
    rw [evalAll]
    exact (h.1.sound_eval env).andThen fun _ env _ => AreStatements.sound_evalAll h.2 env

end

/-- A program tree is evaluated to its end, or to an ordinary fault. -/
theorem IsProgram.sound_eval : ∀ {t : Tree}, t.IsProgram → ∀ env : Env,
    (t.eval mode env).Sound fun _ => True
  | .program body p, h, env => by
    rw [eval]
    exact AreStatements.sound_evalAll h.2 env

end Tree

/-- The fault that an expression is evaluated to is that of one of its sub-expressions. -/
theorem Expr.exists_fault_of_eval {mode : Division} {env : Env} {e : Expr} {f : EvalError}
    (h : e.toTree.eval mode env = (.error f, env)) :
    ∃ s ∈ e.postorder, s.fault mode env = some f := by
  rw [eval_toTree] at h
  cases hfault : e.firstFault mode env with
  | none => simp [hfault] at h
  | some g =>
    rw [hfault] at h
    cases h
    exact List.exists_of_findSome?_eq_some hfault

theorem Engine.ordinary_of_eval {e : Engine} {t : Text} {x : Expr}
    (hx : e.parseExpression t = .ok x) {mode : Division} {env : Env} {f : EvalError}
    (h : x.toTree.eval mode env = (.error f, env)) : f.Ordinary := by
  have hsound : (x.toTree.eval mode env).Sound Value.IsInt :=
    (Engine.isExpression_of_parse hx).sound_eval env
  rw [h] at hsound
  exact hsound

/-- What an engine does with an expression it accepts: it evaluates the tree. -/
theorem Engine.eval_of_parseExpression {e : Engine} {t : Text} {x : Expr}
    (h : e.parseExpression t = .ok x) :
    (∀ v, x.toTree.eval e.division Env.empty = (.ok (.int v), Env.empty) → e.eval t = .ok v) ∧
    ∀ f, x.toTree.eval e.division Env.empty = (.error f, Env.empty) →
      e.eval t = .error (.faulted f) := by
  constructor
  · intro v hv
    simp only [Engine.eval, h, hv]
    rfl
  · intro f hf
    simp only [Engine.eval, h, hf]
    rfl

theorem Engine.eval_cases (e : Engine) (t : Text) :
    (∃ r, e.eval t = .error (.rejected r)) ∨ (∃ v, e.eval t = .ok v) ∨
      ∃ f, e.eval t = .error (.faulted f) ∧ f.Ordinary := by
  cases hx : e.parseExpression t with
  | error r => exact .inl ⟨r, by rw [Engine.eval, hx]⟩
  | ok x =>
    right
    have heval := Engine.eval_of_parseExpression hx
    rcases x.eval_cases e.division Env.empty with ⟨v, hvalue⟩ | ⟨f, hvalue⟩
    · exact .inl ⟨v, heval.1 v hvalue⟩
    · exact .inr ⟨f, heval.2 f hvalue, Engine.ordinary_of_eval hx hvalue⟩

theorem Engine.run_cases (e : Engine) (t : Text) :
    (∃ r, e.run t = .rejected r) ∨ (∃ p env, e.run t = .ran p env none) ∨
      ∃ p env f, e.run t = .ran p env (some f) ∧ f.Ordinary := by
  cases hp : e.parse t with
  | error r => exact .inl ⟨r, by rw [Engine.run, hp]⟩
  | ok p =>
    right
    have hrun := Engine.run_of_parse hp
    have hsound : (p.toTree.eval e.division Env.empty).Sound fun _ => True :=
      (Engine.isProgram_of_parse hp).sound_eval Env.empty
    rw [p.eval_toTree] at hsound
    generalize Tree.evalAll e.division (p.assignments.map Assignment.toTree) Env.empty = r
      at hrun hsound
    obtain ⟨x, env⟩ := r
    cases x with
    | ok v => exact .inl ⟨p, env, hrun⟩
    | error f => exact .inr ⟨p, env, f, hrun, hsound⟩

inductive FailureKind where
  | lex
  | parse
  | undefined
  | arithmetic
deriving DecidableEq, Repr

/-- The kind of a failure. The faults that only trees made by hand have are of none. -/
def Failure.kind? : Failure → Option FailureKind
  | .rejected (.lex _) => some .lex
  | .rejected (.parse _) => some .parse
  | .faulted (.undefined _ _) => some .undefined
  | .faulted (.arithmetic _ _ _) => some .arithmetic
  | .faulted _ => none

theorem Failure.kind?_rejected (r : Rejection) :
    (Failure.rejected r).kind? = some .lex ∨ (Failure.rejected r).kind? = some .parse := by
  cases r with
  | lex e => exact .inl rfl
  | parse e => exact .inr rfl

/-- A failure of one of the four kinds. -/
def Failure.Typed (f : Failure) : Prop := f.kind?.isSome = true

theorem Failure.typed_rejected (r : Rejection) : (Failure.rejected r).Typed := by
  cases r <;> rfl

theorem EvalError.Ordinary.typed {f : EvalError} (h : f.Ordinary) :
    (Failure.faulted f).Typed := by
  cases h <;> rfl

theorem Engine.eval_typed (e : Engine) (t : Text) :
    (∃ v, e.eval t = .ok v) ∨ ∃ f, e.eval t = .error f ∧ f.Typed := by
  rcases e.eval_cases t with ⟨r, hr⟩ | ⟨v, hv⟩ | ⟨f, hf, hord⟩
  · exact .inr ⟨_, hr, Failure.typed_rejected r⟩
  · exact .inl ⟨v, hv⟩
  · exact .inr ⟨_, hf, hord.typed⟩

theorem Engine.run_typed (e : Engine) (t : Text) :
    (∃ p env, e.run t = .ran p env none) ∨ ∃ f, (e.run t).failure? = some f ∧ f.Typed := by
  rcases e.run_cases t with ⟨r, hr⟩ | ⟨p, env, hp⟩ | ⟨p, env, f, hf, hord⟩
  · exact .inr ⟨_, by rw [hr]; rfl, Failure.typed_rejected r⟩
  · exact .inl ⟨p, env, hp⟩
  · exact .inr ⟨_, by rw [hf]; rfl, hord.typed⟩

theorem Engine.env?_run_eq_none (e : Engine) (t : Text) :
    (e.run t).env? = none ↔
      ∃ f, (e.run t).failure? = some f ∧ (f.kind? = some .lex ∨ f.kind? = some .parse) := by
  rcases e.run_cases t with ⟨r, hr⟩ | ⟨p, env, hp⟩ | ⟨p, env, f, hf, hord⟩
  · rw [hr]
    exact ⟨fun _ => ⟨_, rfl, Failure.kind?_rejected r⟩, fun _ => rfl⟩
  · rw [hp]
    exact ⟨nofun, fun ⟨_, h, _⟩ => by cases h⟩
  · rw [hf]
    refine ⟨nofun, fun ⟨_, h, hkind⟩ => ?_⟩
    cases h
    cases hord <;> simp [Failure.kind?] at hkind

/-- An expression, a program, and a text run as what it is each give a result or fail in one of
four ways: by the scanner, by the parser, by an unbound variable or in arithmetic. A run leaves no
environment exactly when it fails in one of the first two. -/
theorem Engine.fails_typed (e : Engine) (t : Text) :
    ((∃ v, e.eval t = .ok v) ∨ ∃ f, e.eval t = .error f ∧ f.Typed) ∧
    ((∃ p env, e.run t = .ran p env none) ∨ ∃ f, (e.run t).failure? = some f ∧ f.Typed) ∧
    ((∃ v, e.exec t = .expression (.ok v)) ∨ (∃ p env, e.exec t = .program (.ran p env none)) ∨
      ∃ f, (e.exec t).failure? = some f ∧ f.Typed) ∧
    ((e.run t).env? = none ↔
      ∃ f, (e.run t).failure? = some f ∧ (f.kind? = some .lex ∨ f.kind? = some .parse)) := by
  refine ⟨e.eval_typed t, e.run_typed t, ?_, e.env?_run_eq_none t⟩
  unfold Engine.exec
  cases detectMode t with
  | program =>
    rcases e.run_typed t with ⟨p, env, hp⟩ | ⟨f, hf, htyped⟩
    · exact .inr (.inl ⟨p, env, by rw [hp]⟩)
    · exact .inr (.inr ⟨f, hf, htyped⟩)
  | expression =>
    rcases e.eval_typed t with ⟨v, hv⟩ | ⟨f, hf, htyped⟩
    · exact .inl ⟨v, by rw [hv]⟩
    · exact .inr (.inr ⟨f, by rw [hf]; rfl, htyped⟩)

end BlockCalc
