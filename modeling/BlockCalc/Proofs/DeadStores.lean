import Mathlib.Data.List.Basic
import BlockCalc.Proofs.ExactWarnings
import BlockCalc.Proofs.Layout
import BlockCalc.Proofs.RunPlaces

/-!
# BlockCalc.Proofs.DeadStores

Assignments that are overwritten before they are read can be taken out of a program.

The run with them and the run without them go through different environments. At every point they
agree on the names whose next event is no write (`AgreeBefore`), since such a name was left out on
one side only if a write of it is still to come. Expressions read only names on which the two agree,
so both runs give every assignment that stays the same value (`evalAll_filter`).
-/

namespace BlockCalc

theorem Expr.nextWrites_reads {x : String} (e : Expr) {es : List Event} :
    nextWrites x (e.reads ++ es) = true ↔
      (∀ p, .read x p ∉ e.reads) ∧ nextWrites x es = true := by
  induction e generalizing es with
  | int v p => simp [reads]
  | var y p =>
    rw [reads, List.singleton_append, nextWrites_read, Bool.and_eq_true, bne_iff_ne]
    refine and_congr_left' ⟨fun hne q hq => ?_, fun hno hyx => ?_⟩
    · cases List.mem_singleton.1 hq
      exact hne rfl
    · exact hno p (by rw [hyx]; exact List.mem_singleton_self _)
  | unary s e p ih => exact ih
  | binary op l r p ihl ihr =>
    simp only [reads, List.append_assoc, ihl, ihr, List.mem_append, not_or, forall_and, and_assoc]

/-! ## Two runs -/

/-- The environments agree on every name whose next event is no write. -/
def AgreeBefore (es : List Event) (env env' : Env) : Prop :=
  ∀ x, env.get? x = env'.get? x ∨ nextWrites x es

theorem AgreeBefore.eq {env env' : Env} (h : AgreeBefore [] env env') : env = env' :=
  Env.ext_get? fun x => (h x).resolve_right Bool.false_ne_true

namespace Expr

variable {mode : Division} {env env' : Env}

/-- An expression depends on the names that it reads. -/
theorem exact_congr {e : Expr}
    (h : ∀ x p, .read x p ∈ e.reads → env.get? x = env'.get? x) :
    e.exact mode env = e.exact mode env' := by
  induction e with
  | int v p => rfl
  | var x p => simp only [exact, h x p (by simp [reads])]
  | unary s e p ih => simp only [exact, ih h]
  | binary op l r p ihl ihr =>
    have hl := ihl fun x p hx => h x p (List.mem_append_left _ hx)
    have hr := ihr fun x p hx => h x p (List.mem_append_right _ hx)
    simp only [exact, hl, hr]

theorem firstFault_congr {e : Expr}
    (h : ∀ x p, .read x p ∈ e.reads → env.get? x = env'.get? x) :
    e.firstFault mode env = e.firstFault mode env' := by
  induction e with
  | int v p => rfl
  | var x p => simp only [firstFault, postorder, List.findSome?, fault, h x p (by simp [reads])]
  | unary s e p ih => simp only [firstFault_unary, fault, ih h, exact_congr (e := e) h]
  | binary op l r p ihl ihr =>
    have hl := fun x p hx => h x p (List.mem_append_left _ hx)
    have hr := fun x p hx => h x p (List.mem_append_right _ hx)
    simp only [firstFault_binary, fault, ihl hl, ihr hr, exact_congr hl, exact_congr hr]

end Expr

namespace Assignment

variable {env env' : Env} {a : Assignment} {es : List Event}

theorem agree_on_reads (h : AgreeBefore (a.events ++ es) env env') :
    ∀ x p, .read x p ∈ a.value.reads → env.get? x = env'.get? x := by
  intro x p hx
  refine (h x).resolve_right fun hover => ?_
  rw [a.events_eq, List.append_assoc] at hover
  exact (a.value.nextWrites_reads.1 hover).1 p hx

/-- What one assignment keeps, whether both sides execute it or one side leaves it out. -/
theorem agree_after (h : AgreeBefore (a.events ++ es) env env') (v : Int64) :
    AgreeBefore es (env.set a.name v) (env'.set a.name v) ∧
      (nextWrites a.name es → AgreeBefore es (env.set a.name v) env') := by
  have hother : ∀ x, x ≠ a.name → env.get? x = env'.get? x ∨ nextWrites x es := by
    intro x hx
    refine (h x).imp_right fun hover => ?_
    rw [a.events_eq, List.append_assoc] at hover
    have hnext := (a.value.nextWrites_reads.1 hover).2
    rw [List.singleton_append, nextWrites_write, Bool.or_eq_true, beq_iff_eq] at hnext
    exact hnext.resolve_left (Ne.symm hx)
  constructor
  · intro x
    by_cases hx : x = a.name
    · exact .inl (by rw [Env.get?_set, Env.get?_set, if_pos hx, if_pos hx])
    · rw [Env.get?_set, Env.get?_set, if_neg hx, if_neg hx]
      exact hother x hx
  · intro hover x
    by_cases hx : x = a.name
    · exact .inr (hx ▸ hover)
    · rw [Env.get?_set, if_neg hx]
      exact hother x hx

end Assignment

/-- Assignments whose names are overwritten can be left out of a run that succeeds. -/
theorem evalAll_filter {mode : Division} {keep : Assignment → Bool} {final : Env}
    (as : List Assignment) : ∀ {env env' : Env},
    AgreeBefore (as.flatMap Assignment.events) env env' →
    (∀ before a after, as = before ++ a :: after → keep a = false →
      nextWrites a.name (after.flatMap Assignment.events)) →
    Tree.evalAll mode (as.map Assignment.toTree) env = (.ok .unit, final) →
    Tree.evalAll mode ((as.filter keep).map Assignment.toTree) env' = (.ok .unit, final) := by
  induction as with
  | nil =>
    intro env env' hagree _ hrun
    rw [← hagree.eq]
    exact hrun
  | cons a as ih =>
    intro env env' hagree hdrop hrun
    rw [List.flatMap_cons] at hagree
    rw [List.map_cons, evalAll_assignment] at hrun
    have hreads := Assignment.agree_on_reads hagree
    have hrest : ∀ before b after, as = before ++ b :: after → keep b = false →
        nextWrites b.name (after.flatMap Assignment.events) :=
      fun before b after h => hdrop (a :: before) b after (congrArg (a :: ·) h)
    cases hfault : a.value.firstFault mode env with
    | some f =>
      rw [hfault] at hrun
      cases hrun
    | none =>
      rw [hfault] at hrun
      obtain ⟨hboth, hone⟩ := Assignment.agree_after hagree (Int64.ofInt (a.value.exact mode env))
      cases hkeep : keep a with
      | true =>
        rw [List.filter_cons_of_pos hkeep, List.map_cons, evalAll_assignment,
          ← Expr.firstFault_congr hreads, hfault, ← Expr.exact_congr hreads]
        exact ih hboth hrest hrun
      | false =>
        rw [List.filter_cons_of_neg (by simp [hkeep])]
        exact ih (hone (hdrop [] a as rfl hkeep)) hrest hrun

/-! ## What the warnings are about -/

/-- Where a sequence of events writes. -/
def writePlaces (es : List Event) : List Position :=
  es.filterMap fun
    | .read _ _ => none
    | .write _ p => some p

theorem writePlaces_append (es fs : List Event) :
    writePlaces (es ++ fs) = writePlaces es ++ writePlaces fs := List.filterMap_append

theorem mem_writePlaces {x : String} {p : Position} {es : List Event} (h : .write x p ∈ es) :
    p ∈ writePlaces es := List.mem_filterMap.2 ⟨_, h, rfl⟩

theorem Expr.writePlaces_reads (e : Expr) : writePlaces e.reads = [] := by
  induction e with
  | int v p => rfl
  | var x p => rfl
  | unary s e p ih => exact ih
  | binary op l r p ihl ihr => rw [reads, writePlaces_append, ihl, ihr, List.append_nil]

theorem writePlaces_events (as : List Assignment) :
    writePlaces (as.flatMap Assignment.events) = as.map (·.namePos) := by
  induction as with
  | nil => rfl
  | cons a as ih =>
    rw [List.flatMap_cons, writePlaces_append, ih, a.events_eq, writePlaces_append,
      a.value.writePlaces_reads]
    rfl

mutual

theorem Stmt.namePos_sublist : ∀ s : Stmt,
    (s.assignments.map (·.namePos)).Sublist (s.marks.map (·.pos))
  | .block _ b => b.namePos_sublist.cons _
  | .assign _ q _ _ => (List.nil_sublist _).cons_cons q
  | .empty _ => List.nil_sublist _

theorem Stmts.namePos_sublist : ∀ b : Stmts,
    (b.assignments.map (·.namePos)).Sublist (b.marks.map (·.pos))
  | .one s => s.namePos_sublist
  | .cons s b => by
    rw [Stmts.assignments, List.map_append, Stmts.marks, List.map_append]
    exact s.namePos_sublist.append b.namePos_sublist

end

/-- The targets of the assignments of an accepted program stand one after the other in its text. -/
theorem Program.ascending_namePos {limit : Nat} {t : Text} {p : Program}
    (h : Program.parse limit t = .ok p) :
    (p.assignments.map (·.namePos)).Pairwise Position.Before :=
  (Program.ascending_marks h).sublist (p.body.namePos_sublist.cons _)

theorem Program.nodup_namePos {limit : Nat} {t : Text} {p : Program}
    (h : Program.parse limit t = .ok p) : (p.assignments.map (·.namePos)).Nodup :=
  (Program.ascending_namePos h).imp Position.Before.ne

/-- A write that a run calls a warning for is followed by another on its name, with no read in
between. -/
theorem exists_of_mem_calledFor {x : String} {q : Position} {es : List Event} :
    ∀ {before : List Event}, ⟨q, x, .overwrittenUnread⟩ ∈ calledFor before es →
      ∃ us vs, es = us ++ .write x q :: vs ∧ nextWrites x vs = true := by
  induction es with
  | nil => intro before h; cases h
  | cons e es ih =>
    intro before h
    rcases List.mem_append.1 h with hnow | hlater
    · cases e with
      | read y p =>
        simp only [Event.warning?] at hnow
        split at hnow <;> simp at hnow
      | write y p =>
        simp only [Event.warning?] at hnow
        split at hnow
        · rename_i hnext
          simp only [Option.toList, List.mem_singleton, Warning.mk.injEq, and_true] at hnow
          obtain ⟨rfl, rfl⟩ := hnow
          exact ⟨[], es, rfl, hnext⟩
        · cases hnow
    · obtain ⟨us, vs, rfl, hnext⟩ := ih hlater
      exact ⟨e :: us, vs, rfl, hnext⟩

/-- The warning that the value of an assignment is overwritten before it is read. -/
def Assignment.warning (a : Assignment) : Warning := ⟨a.namePos, a.name, .overwrittenUnread⟩

theorem Program.nextWrites_of_warning {limit : Nat} {t : Text} {p : Program}
    (h : Program.parse limit t = .ok p) {a : Assignment} {before after : List Assignment}
    (hsplit : p.assignments = before ++ a :: after) (hw : a.warning ∈ p.warnings) :
    nextWrites a.name (after.flatMap Assignment.events) = true := by
  have hevents : p.assignments.flatMap Assignment.events =
      (before.flatMap Assignment.events ++ a.value.reads) ++
        .write a.name a.namePos :: after.flatMap Assignment.events := by
    rw [hsplit]
    simp [Assignment.events_eq]
  have hnodup := Program.nodup_namePos h
  rw [← writePlaces_events, hevents, writePlaces_append] at hnodup
  have hbefore : .write a.name a.namePos ∉ before.flatMap Assignment.events ++ a.value.reads :=
    fun hmem => (List.nodup_append.1 hnodup).2.2 _ (mem_writePlaces hmem) _ List.mem_cons_self rfl
  have hafter : .write a.name a.namePos ∉ after.flatMap Assignment.events :=
    fun hmem => (List.nodup_cons.1 (List.nodup_append.1 hnodup).2.1).1 (mem_writePlaces hmem)
  -- the write that the warning is about is this one, since no other has its place
  obtain ⟨us, vs, hw, hnext⟩ := exists_of_mem_calledFor (p.warnings_perm.mem_iff.1 hw)
  rw [hevents, List.append_cons_inj_of_notMem hbefore hafter] at hw
  rw [hw.2.2]
  exact hnext

/-! ## Taking assignments out -/

mutual

/-- The statement with an empty one in the place of every assignment that `D` warns of. -/
def Stmt.without (D : List Warning) : Stmt → Stmt
  | .block p b => .block p (b.without D)
  | .assign x q e p => if ⟨q, x, .overwrittenUnread⟩ ∈ D then .empty q else .assign x q e p
  | .empty p => .empty p

def Stmts.without (D : List Warning) : Stmts → Stmts
  | .one s => .one (s.without D)
  | .cons s b => .cons (s.without D) (b.without D)

end

def Program.without (D : List Warning) (p : Program) : Program := ⟨p.pos, p.body.without D⟩

mutual

theorem Stmt.assignments_without (D : List Warning) : ∀ s : Stmt,
    (s.without D).assignments = s.assignments.filter (fun a => a.warning ∉ D)
  | .block p b => b.assignments_without D
  | .assign x q e p => by
    rw [Stmt.without]
    by_cases h : ⟨q, x, .overwrittenUnread⟩ ∈ D <;>
      simp [h, Stmt.assignments, Assignment.warning]
  | .empty p => rfl

theorem Stmts.assignments_without (D : List Warning) : ∀ b : Stmts,
    (b.without D).assignments = b.assignments.filter (fun a => a.warning ∉ D)
  | .one s => s.assignments_without D
  | .cons s b => by
    rw [Stmts.without, Stmts.assignments, Stmts.assignments, List.filter_append,
      s.assignments_without D, b.assignments_without D]

end

mutual

theorem Stmt.wellFormed_without (D : List Warning) : ∀ {s : Stmt}, s.WellFormed →
    (s.without D).WellFormed ∧ (s.without D).nesting ≤ s.nesting
  | .block p b, h => by
    obtain ⟨hb, hn⟩ := Stmts.wellFormed_without D (b := b) h
    exact ⟨hb, Nat.succ_le_succ hn⟩
  | .assign x q e p, h => by
    rw [Stmt.without]
    split
    · exact ⟨trivial, Nat.zero_le _⟩
    · exact ⟨h, Nat.le_refl _⟩
  | .empty p, _ => ⟨trivial, Nat.le_refl _⟩

theorem Stmts.wellFormed_without (D : List Warning) : ∀ {b : Stmts}, b.WellFormed →
    (b.without D).WellFormed ∧ (b.without D).nesting ≤ b.nesting
  | .one s, h => Stmt.wellFormed_without D (s := s) h
  | .cons s b, h => by
    obtain ⟨hs, hsn⟩ := Stmt.wellFormed_without D (s := s) h.1
    obtain ⟨hb, hbn⟩ := Stmts.wellFormed_without D (b := b) h.2
    exact ⟨⟨hs, hb⟩, by simp only [Stmts.without, Stmts.nesting]; omega⟩

end

theorem Program.eval_without {limit : Nat} {t : Text} {p : Program}
    (h : Program.parse limit t = .ok p) {D : List Warning} (hD : D ⊆ p.warnings)
    {mode : Division} {env : Env} (heval : p.toTree.eval mode Env.empty = (.ok .unit, env)) :
    (p.without D).toTree.eval mode Env.empty = (.ok .unit, env) := by
  rw [p.eval_toTree] at heval
  rw [Program.eval_toTree, Program.assignments, Program.without, p.body.assignments_without]
  refine evalAll_filter p.assignments (fun _ => .inl rfl) ?_ heval
  intro before a after hsplit hkeep
  exact Program.nextWrites_of_warning h hsplit (hD (by simpa using hkeep))

/-- Replacing assignments that are reported as overwritten before they are read by empty statements
changes nothing about a run that succeeds: the program that is left ends with the same environment.
It can be written, in the same depth, and every text of it is run so. -/
theorem Engine.run_without {e : Engine} {t : Text} {p : Program} {env : Env}
    (hrun : e.run t = .ran p env none) {D : List Warning} (hD : D ⊆ p.warnings) :
    (p.without D).toTree.eval e.division Env.empty = (.ok .unit, env) ∧
    (∀ t' p', e.parse t' = .ok p' → p'.bare = (p.without D).bare →
      e.run t' = .ran p' env none) ∧
    ∃ p', e.parse (Text.ofString (p.without D).layout) = .ok p' ∧
      p'.bare = (p.without D).bare := by
  obtain ⟨hparse, heval⟩ := Engine.run_eq_ran_none.1 hrun
  have hwithout := Program.eval_without hparse hD heval
  refine ⟨hwithout, fun t' p' hparse' hbare => ?_, ?_⟩
  · have hcongr := Program.eval_congr hbare e.division Env.empty
    rw [hwithout] at hcongr
    exact Engine.run_eq_ran_none.2 ⟨hparse', Evaluated.eq_of_bare_eq_ok hcongr⟩
  · obtain ⟨hwf, hnesting⟩ := Program.wellFormed_of_parse hparse
    obtain ⟨hwf', hless⟩ := Stmts.wellFormed_without D hwf
    exact Program.parse_layout hwf' (Nat.le_trans (Nat.succ_le_succ hless) hnesting)

/-- The second assignment reads the value of the first, so the first stays. -/
theorem Engine.run_without_nested :
    let t := Text.ofString "BEGIN x := 1; BEGIN x := x + 1 END; x := 2; x := 3 END."
    let D : List Warning :=
      [⟨⟨1, 21⟩, "x", .overwrittenUnread⟩, ⟨⟨1, 37⟩, "x", .overwrittenUnread⟩]
    ∃ p env, Engine.run ⟨2, .floor⟩ t = .ran p env none ∧ D ⊆ p.warnings ∧
      (p.without D).layout = "BEGIN\n  x := 1;\n  BEGIN\n  END;\n  ;\n  x := 3\nEND.\n" ∧
      (p.without D).toTree.eval .floor Env.empty = (.ok .unit, env) := by
  intro t D
  have h : (Engine.parse ⟨2, .floor⟩ t).toOption.map (fun p =>
      (Tracker.start.warnings p.events, (p.without D).layout,
        (Tree.evalAll .floor (p.assignments.map Assignment.toTree) Env.empty).fault?)) =
        some (D, "BEGIN\n  x := 1;\n  BEGIN\n  END;\n  ;\n  x := 3\nEND.\n", none) := by
    decide +kernel
  obtain ⟨p, hp, hw⟩ := exists_of_toOption_map h
  simp only [Prod.mk.injEq] at hw
  obtain ⟨hwarnings, hlayout, hfault⟩ := hw
  have hrun := Engine.run_of_parse hp
  simp only [hfault] at hrun
  have hD : D ⊆ p.warnings := fun w hmem => List.mem_mergeSort.2 (hwarnings ▸ hmem)
  exact ⟨p, _, hrun, hD, hlayout, (Engine.run_without hrun hD).1⟩

end BlockCalc
