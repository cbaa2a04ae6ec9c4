import BlockCalc.Proofs.Acceptance
import BlockCalc.Proofs.Assignments
import BlockCalc.Proofs.Inorder
import BlockCalc.Proofs.Lists
import BlockCalc.Proofs.Order

/-!
# BlockCalc.Proofs.Unassigned

What the warnings about reads before an assignment say of a run. The tracker walks on after a
warning and a run stops at its first fault, but up to that fault the names that the tracker has
seen written are those that are bound (`Tracks`). So a run that comes to an unbound name comes to
the first that is warned of.

The warnings are listed by place. Reads come up in the order of the text, so the list keeps them in
the order in which they come up (`Program.misreads_eq`).
-/

namespace BlockCalc

/-- The warning is about a read. -/
def Warning.isMisread (w : Warning) : Bool := w.complaint = .readBeforeAssigned

/-- The reads that a program is warned of, as they are listed. -/
def Program.misreads (p : Program) : List Warning := p.warnings.filter Warning.isMisread

namespace Tracker

/-- The tracker after a sequence of events. -/
def after (k : Tracker) (es : List Event) : Tracker := es.foldl (fun k e => (k.step e).1) k

/-- The warnings about reads, as they come up. -/
def misreads (k : Tracker) (es : List Event) : List Warning :=
  (k.warnings es).filter Warning.isMisread

theorem warnings_cons (k : Tracker) (e : Event) (es : List Event) :
    k.warnings (e :: es) = (k.step e).2.toList ++ (k.step e).1.warnings es := by
  rw [warnings]
  generalize k.step e = r
  obtain ⟨k', w⟩ := r
  cases w <;> rfl

theorem warnings_append (k : Tracker) (es fs : List Event) :
    k.warnings (es ++ fs) = k.warnings es ++ (k.after es).warnings fs := by
  induction es generalizing k with
  | nil => rfl
  | cons e es ih =>
    rw [List.cons_append, warnings_cons, ih, warnings_cons, List.append_assoc]
    rfl

theorem misreads_append (k : Tracker) (es fs : List Event) :
    k.misreads (es ++ fs) = k.misreads es ++ (k.after es).misreads fs := by
  simp only [misreads, warnings_append, List.filter_append]

theorem after_append (k : Tracker) (es fs : List Event) :
    k.after (es ++ fs) = (k.after es).after fs := List.foldl_append

theorem misreads_read (k : Tracker) (x : String) (p : Position) :
    k.misreads [.read x p] = if x ∈ k.written then [] else [⟨p, x, .readBeforeAssigned⟩] := by
  by_cases h : x ∈ k.written <;> simp [misreads, warnings, step, h, Warning.isMisread]

theorem misreads_write (k : Tracker) (x : String) (p : Position) :
    k.misreads [.write x p] = [] := by
  cases h : k.unread.lookup x <;> simp [misreads, warnings, step, h, Warning.isMisread]

/-- Reading writes nothing. -/
theorem written_after_reads (k : Tracker) (e : Expr) : (k.after e.reads).written = k.written := by
  induction e generalizing k with
  | int v p => rfl
  | var x p => rfl
  | unary s e p ih => exact ih k
  | binary op l r p ihl ihr => rw [Expr.reads, after_append, ihr, ihl]

/-- The names that have been written are those that are bound. -/
def Tracks (k : Tracker) (env : Env) : Prop := ∀ x, x ∈ k.written ↔ (env.get? x).isSome = true

theorem tracks_start : start.Tracks Env.empty := by
  intro x
  simp [start, Env.get?_empty]

theorem Tracks.assign {k : Tracker} {env : Env} (h : k.Tracks env) (a : Assignment) (v : Int64) :
    (k.after a.events).Tracks (env.set a.name v) := by
  intro x
  have hwritten : (k.after a.events).written = a.name :: k.written := by
    rw [a.events_eq, after_append]
    exact congrArg (a.name :: ·) (k.written_after_reads a.value)
  rw [hwritten, List.mem_cons, h x, Env.get?_set]
  by_cases hx : x = a.name <;> simp [hx]

end Tracker

/-! ## What warnings say of a run -/

/-- A run that is warned of the reads `ws` can end so: without a fault only if there are none, and
at an unbound name only if that is the first. Arithmetic may fault at any time. -/
def Foretells (ws : List Warning) : Option EvalError → Prop
  | none => ws = []
  | some (.undefined x p) => ws.head? = some ⟨p, x, .readBeforeAssigned⟩
  | some (.arithmetic _ _ _) => True
  | some _ => False

theorem Foretells.append {ws vs : List Warning} {f : EvalError} (h : Foretells ws (some f)) :
    Foretells (ws ++ vs) (some f) := by
  cases f with
  | undefined x p =>
    simp only [Foretells] at h ⊢
    rw [List.head?_append, h, Option.some_or]
  | arithmetic op cause p => trivial
  | _ => exact h.elim

/-- A part without a fault, and then the rest. -/
theorem Foretells.or {ws vs : List Warning} {f g : Option EvalError} (h : Foretells ws f)
    (hg : Foretells vs g) : Foretells (ws ++ vs) (f.or g) := by
  cases f with
  | none =>
    simp only [Foretells] at h
    rw [h]
    exact hg
  | some f => exact h.append

theorem Foretells.of_nil {f : Option EvalError} (h : Foretells [] f) :
    f = none ∨ ∃ op cause p, f = some (.arithmetic op cause p) := by
  match f with
  | none => exact .inl rfl
  | some (.arithmetic op cause p) => exact .inr ⟨op, cause, p, rfl⟩
  | some (.undefined x p) => cases h

theorem Foretells.of_cons {w : Warning} {ws : List Warning} {f : Option EvalError}
    (h : Foretells (w :: ws) f) :
    (∃ op cause p, f = some (.arithmetic op cause p)) ∨ f = some (.undefined w.name w.pos) := by
  match f with
  | none => cases h
  | some (.arithmetic op cause p) => exact .inl ⟨op, cause, p, rfl⟩
  | some (.undefined x p) => cases h; exact .inr rfl

theorem foretells_arithmetic (op : TokenKind) (cause : Option ArithError) (p : Position) :
    Foretells [] (cause.map (.arithmetic op · p)) := by
  cases cause with
  | none => rfl
  | some c => trivial

section

variable (mode : Division)

theorem Expr.foretells_firstFault {env : Env} (e : Expr) :
    ∀ {k : Tracker}, k.Tracks env → Foretells (k.misreads e.reads) (e.firstFault mode env) := by
  induction e with
  | int v p => intro k _; rfl
  | var x p =>
    intro k hk
    have hx := hk x
    rw [reads, Tracker.misreads_read]
    cases hget : (env.get? x).isSome with
    | true => simp [hx.2 hget, firstFault, postorder, fault, hget, Foretells]
    | false =>
      have : x ∉ k.written := by simp [hx, hget]
      simp [this, firstFault, postorder, fault, hget, Foretells]
  | unary s e p ih =>
    intro k hk
    rw [firstFault_unary, fault]
    have := (ih hk).or (foretells_arithmetic s.kind (overflow? (s.apply (e.exact mode env))) p)
    rwa [List.append_nil] at this
  | binary op l r p ihl ihr =>
    intro k hk
    have hr : (k.after l.reads).Tracks env := by
      unfold Tracker.Tracks
      rw [k.written_after_reads l]
      exact hk
    rw [firstFault_binary, fault, reads, Tracker.misreads_append]
    have := (ihr hr).or (foretells_arithmetic op.kind
      (op.fault? mode (l.exact mode env) (r.exact mode env)) p)
    rw [List.append_nil] at this
    exact (ihl hk).or this

theorem Assignment.misreads_events (a : Assignment) (k : Tracker) :
    k.misreads a.events = k.misreads a.value.reads := by
  rw [a.events_eq, Tracker.misreads_append, Tracker.misreads_write, List.append_nil]

/-- The reads that assignments are warned of foretell how executing them ends. -/
theorem foretells_evalAll (as : List Assignment) : ∀ {k : Tracker} {env : Env}, k.Tracks env →
    Foretells (k.misreads (as.flatMap Assignment.events))
      (Tree.evalAll mode (as.map Assignment.toTree) env).fault? := by
  induction as with
  | nil => intro k env _; rfl
  | cons a as ih =>
    intro k env hk
    have hvalue := a.value.foretells_firstFault mode hk
    rw [List.flatMap_cons, Tracker.misreads_append, a.misreads_events, List.map_cons,
      evalAll_assignment]
    cases hfault : a.value.firstFault mode env with
    | none =>
      rw [hfault] at hvalue
      exact hvalue.or (ih (hk.assign a _))
    | some f =>
      rw [hfault] at hvalue
      exact hvalue.append

end

/-! ## The order of the list -/

/-- Where a sequence of events reads. -/
def readPlaces (es : List Event) : List Position :=
  es.filterMap fun
    | .read _ p => some p
    | .write _ _ => none

theorem readPlaces_append (es fs : List Event) :
    readPlaces (es ++ fs) = readPlaces es ++ readPlaces fs := List.filterMap_append

theorem Tracker.misreads_sublist (k : Tracker) (es : List Event) :
    ((k.misreads es).map (·.pos)).Sublist (readPlaces es) := by
  induction es generalizing k with
  | nil => exact .slnil
  | cons e es ih =>
    rw [← List.singleton_append, misreads_append, readPlaces_append, List.map_append]
    refine List.Sublist.append ?_ (ih _)
    cases e with
    | read x p =>
      rw [misreads_read]
      split
      · exact List.nil_sublist _
      · exact List.Sublist.refl _
    | write x p =>
      rw [misreads_write]
      exact List.nil_sublist _

theorem Expr.readPlaces_sublist (e : Expr) :
    (readPlaces e.reads).Sublist (e.marks.map (·.pos)) := by
  induction e with
  | int v p => exact List.nil_sublist _
  | var x p => exact List.Sublist.refl _
  | unary s e p ih => exact ih.cons _
  | binary op l r p ihl ihr =>
    rw [reads, readPlaces_append, marks, List.map_append]
    exact ihl.append (ihr.cons _)

mutual

theorem Stmt.readPlaces_sublist : ∀ s : Stmt, (readPlaces s.events).Sublist (s.marks.map (·.pos))
  | .block p b => b.readPlaces_sublist.cons _
  | .assign x q e p => by
    have hwrite : readPlaces [.write x q] = [] := rfl
    rw [Stmt.events, readPlaces_append, hwrite, List.append_nil]
    exact (e.readPlaces_sublist.cons _).cons _
  | .empty p => List.nil_sublist _

theorem Stmts.readPlaces_sublist : ∀ b : Stmts,
    (readPlaces b.events).Sublist (b.marks.map (·.pos))
  | .one s => s.readPlaces_sublist
  | .cons s b => by
    rw [Stmts.events, readPlaces_append, Stmts.marks, List.map_append]
    exact s.readPlaces_sublist.append b.readPlaces_sublist

end

/-- The nodes of an accepted program stand one after the other in its text. -/
theorem Program.ascending_marks {limit : Nat} {t : Text} {p : Program}
    (h : Program.parse limit t = .ok p) : (p.marks.map (·.pos)).Pairwise Position.Before := by
  obtain ⟨ts, ⟨q, hq⟩, n, _, hd⟩ := Program.parse_eq_ok_iff.1 h
  have hplaces := Scan.ascending_ofText t
  rw [hq, Scan.places] at hplaces
  have hmarks : p.marks = marksOf ts := hd.marks
  rw [hmarks]
  exact ((List.pairwise_append.1 hplaces).1).sublist (marksOf_pos_sublist ts)

/-- The list of warnings has the reads in the order in which they come up. -/
theorem Program.misreads_eq {limit : Nat} {t : Text} {p : Program}
    (h : Program.parse limit t = .ok p) : p.misreads = Tracker.start.misreads p.events := by
  have hplaces : (readPlaces p.events).Pairwise Position.Before :=
    (Program.ascending_marks h).sublist (p.body.readPlaces_sublist.cons _)
  have hpairs := List.pairwise_map.1 (hplaces.sublist (Tracker.start.misreads_sublist p.events))
  exact filter_mergeSort (fun _ _ _ => Position.le_trans) (fun _ _ => Position.le_total _ _)
    (hpairs.imp Position.Before.le)

/-- A program without a warned read fails in arithmetic or not at all. One with such reads fails,
in arithmetic or at the first of them. -/
theorem Engine.run_foretold {e : Engine} {t : Text} {p : Program} (h : e.parse t = .ok p) :
    ∃ env fault, e.run t = .ran p env fault ∧
      (p.misreads = [] → fault = none ∨ ∃ op cause pos, fault = some (.arithmetic op cause pos)) ∧
      (∀ w rest, p.misreads = w :: rest →
        (∃ op cause pos, fault = some (.arithmetic op cause pos)) ∨
          fault = some (.undefined w.name w.pos)) := by
  have hforetold := foretells_evalAll e.division p.assignments Tracker.tracks_start
  rw [Program.assignments, ← p.body.events_eq, ← Program.events, ← Program.misreads_eq h]
    at hforetold
  refine ⟨_, _, Engine.run_of_parse h, ?_, ?_⟩
  · intro hnone
    rw [hnone] at hforetold
    exact hforetold.of_nil
  · intro w rest hw
    rw [hw] at hforetold
    exact hforetold.of_cons

/-- Both names are unassigned; the run ends at the one that is read first. -/
theorem Engine.run_foretold_quotient :
    ∃ p, Engine.parse ⟨1, .floor⟩ (Text.ofString "BEGIN x := 1; x := a / b END.") = .ok p ∧
      p.misreads =
        [⟨⟨1, 20⟩, "a", .readBeforeAssigned⟩, ⟨⟨1, 24⟩, "b", .readBeforeAssigned⟩] ∧
      ∃ env fault,
        Engine.run ⟨1, .floor⟩ (Text.ofString "BEGIN x := 1; x := a / b END.") =
          .ran p env fault ∧
        ((∃ op cause pos, fault = some (.arithmetic op cause pos)) ∨
          fault = some (.undefined "a" ⟨1, 20⟩)) := by
  have h : (Engine.parse ⟨1, .floor⟩
      (Text.ofString "BEGIN x := 1; x := a / b END.")).toOption.map
        (Tracker.start.misreads ·.events) =
        some [⟨⟨1, 20⟩, "a", .readBeforeAssigned⟩, ⟨⟨1, 24⟩, "b", .readBeforeAssigned⟩] := by
    decide +kernel
  obtain ⟨p, hp, hevents⟩ := exists_of_toOption_map h
  have hmisreads := (Program.misreads_eq hp).trans hevents
  obtain ⟨env, fault, hrun, -, hfirst⟩ := Engine.run_foretold hp
  exact ⟨p, hp, hmisreads, env, fault, hrun, hfirst _ _ hmisreads⟩

end BlockCalc
