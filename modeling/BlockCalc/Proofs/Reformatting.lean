import BlockCalc.Proofs.Faults

/-!
# BlockCalc.Proofs.Reformatting

Canonical source behaves like the source it was made from. The two have the same tree up to places,
so they are run alike.

Warnings are listed by place, and all places change. But in both texts the nodes of the tree stand
in the same order, so there is a map of places that keeps their order and takes each node to where
it stands in the other text (`Program.exists_move`). Tracking a run commutes with such a map
(`Tracker.warnings_move`), and so does sorting.
-/

namespace BlockCalc

/-! ## Moving the places of events and warnings -/

def Event.move (φ : Position → Position) : Event → Event
  | .read x p => .read x (φ p)
  | .write x p => .write x (φ p)

def Warning.move (φ : Position → Position) (w : Warning) : Warning := { w with pos := φ w.pos }

theorem Warning.message_move (φ : Position → Position) (w : Warning) :
    (w.move φ).message = w.message := rfl

namespace Tracker

variable (φ : Position → Position)

def move (k : Tracker) : Tracker := ⟨k.written, k.unread.map (Prod.map id φ)⟩

theorem lookup_map (x : String) (l : List (String × Position)) :
    (l.map (Prod.map id φ)).lookup x = (l.lookup x).map φ := by
  induction l with
  | nil => rfl
  | cons b l ih =>
    obtain ⟨y, q⟩ := b
    simp only [List.map_cons, Prod.map_apply, id_eq, List.lookup_cons, ih]
    cases x == y <;> rfl

theorem filter_map_ne (x : String) (l : List (String × Position)) :
    (l.map (Prod.map id φ)).filter (·.1 != x) =
      (l.filter (·.1 != x)).map (Prod.map id φ) := by
  rw [List.filter_map]
  rfl

theorem step_move (k : Tracker) (e : Event) :
    (k.move φ).step (e.move φ) = ((k.step e).1.move φ, (k.step e).2.map (Warning.move φ)) := by
  cases e with
  | read x p =>
    simp only [Event.move, move, step, filter_map_ne, apply_ite (Option.map (Warning.move φ))]
    rfl
  | write x p =>
    simp only [Event.move, move, step, filter_map_ne, lookup_map]
    cases k.unread.lookup x <;> rfl

theorem warnings_move (es : List Event) : ∀ k : Tracker,
    (k.move φ).warnings (es.map (Event.move φ)) = (k.warnings es).map (Warning.move φ) := by
  induction es with
  | nil => intro k; rfl
  | cons e es ih =>
    intro k
    rw [List.map_cons, warnings_cons, step_move, ih, warnings_cons, List.map_append]
    cases (k.step e).2 <;> rfl

end Tracker

/-! ## The same tree in two texts -/

theorem Expr.length_marks_bare (e : Expr) : e.bare.marks.length = e.marks.length := by
  induction e with
  | int v p => rfl
  | var x p => rfl
  | unary s e p ih => simp only [bare, marks, List.length_cons, ih]
  | binary op l r p ihl ihr =>
    simp only [bare, marks, List.length_append, List.length_cons, ihl, ihr]

mutual

theorem Stmt.length_marks_bare : ∀ s : Stmt, s.bare.marks.length = s.marks.length
  | .block p b => by simp only [Stmt.bare, Stmt.marks, List.length_cons, b.length_marks_bare]
  | .assign x q e p => by simp only [Stmt.bare, Stmt.marks, List.length_cons, e.length_marks_bare]
  | .empty p => rfl

theorem Stmts.length_marks_bare : ∀ b : Stmts, b.bare.marks.length = b.marks.length
  | .one s => s.length_marks_bare
  | .cons s b => by
    simp only [Stmts.bare, Stmts.marks, List.length_append, s.length_marks_bare,
      b.length_marks_bare]

end

/-- The marks `ms` have moved to where the marks `ms'` are. -/
def Moved (φ : Position → Position) (ms ms' : List Mark) : Prop :=
  ms'.map (·.pos) = ms.map (φ ·.pos)

theorem Moved.cons {φ : Position → Position} {m m' : Mark} {ms ms' : List Mark}
    (h : Moved φ (m :: ms) (m' :: ms')) : m'.pos = φ m.pos ∧ Moved φ ms ms' := List.cons.inj h

theorem Moved.append {φ : Position → Position} {ms ns ms' ns' : List Mark}
    (h : Moved φ (ms ++ ns) (ms' ++ ns')) (hlength : ms'.length = ms.length) :
    Moved φ ms ms' ∧ Moved φ ns ns' := by
  unfold Moved at h
  rw [List.map_append, List.map_append] at h
  exact List.append_inj h (by simpa using hlength)

section

variable {φ : Position → Position}

theorem Expr.reads_move (e : Expr) : ∀ {e' : Expr}, e'.bare = e.bare →
    Moved φ e.marks e'.marks → e'.reads = e.reads.map (Event.move φ) := by
  induction e with
  | int v p =>
    intro e' h _
    cases e' <;> simp only [bare, reduceCtorEq] at h
    rfl
  | var x p =>
    intro e' h hmoved
    cases e' <;> simp only [bare, var.injEq, and_true, reduceCtorEq] at h
    obtain ⟨hpos, _⟩ := hmoved.cons
    simp only at hpos
    rw [reads, h, hpos]
    rfl
  | unary s e p ih =>
    intro e' h hmoved
    cases e' <;> simp only [bare, unary.injEq, and_true, reduceCtorEq] at h
    rw [reads, ih h.2 hmoved.cons.2]
    rfl
  | binary op l r p ihl ihr =>
    intro e' h hmoved
    cases e' <;> simp only [bare, binary.injEq, and_true, reduceCtorEq] at h
    rename_i op' l' r' p'
    obtain ⟨_, hl, hr⟩ := h
    have hlength : l'.marks.length = l.marks.length := by
      rw [← l'.length_marks_bare, hl, l.length_marks_bare]
    obtain ⟨hleft, hright⟩ := Moved.append hmoved hlength
    rw [reads, reads, List.map_append, ihl hl hleft, ihr hr hright.cons.2]

mutual

theorem Stmt.events_move : ∀ (s : Stmt) {s' : Stmt}, s'.bare = s.bare →
    Moved φ s.marks s'.marks → s'.events = s.events.map (Event.move φ)
  | .block p b, s', h, hmoved => by
    cases s' <;> simp only [Stmt.bare, Stmt.block.injEq, true_and, reduceCtorEq] at h
    exact b.events_move h hmoved.cons.2
  | .assign x q e p, s', h, hmoved => by
    cases s' <;> simp only [Stmt.bare, Stmt.assign.injEq, true_and, and_true, reduceCtorEq] at h
    obtain ⟨rfl, he⟩ := h
    obtain ⟨hpos, hrest⟩ := hmoved.cons
    simp only at hpos
    rw [Stmt.events, Stmt.events, List.map_append, e.reads_move he hrest.cons.2, hpos]
    rfl
  | .empty p, s', h, _ => by
    cases s' <;> simp only [Stmt.bare, reduceCtorEq] at h
    rfl

theorem Stmts.events_move : ∀ (b : Stmts) {b' : Stmts}, b'.bare = b.bare →
    Moved φ b.marks b'.marks → b'.events = b.events.map (Event.move φ)
  | .one s, b', h, hmoved => by
    cases b' <;> simp only [Stmts.bare, Stmts.one.injEq, reduceCtorEq] at h
    exact s.events_move h hmoved
  | .cons s b, b', h, hmoved => by
    cases b' <;> simp only [Stmts.bare, Stmts.cons.injEq, reduceCtorEq] at h
    rename_i s' b'
    obtain ⟨hs, hb⟩ := h
    have hlength : s'.marks.length = s.marks.length := by
      rw [← s'.length_marks_bare, hs, s.length_marks_bare]
    obtain ⟨hfirst, hrest⟩ := Moved.append hmoved hlength
    rw [Stmts.events, Stmts.events, List.map_append, s.events_move hs hfirst,
      b.events_move hb hrest]

end

end

/-! ## Places that are in order -/

theorem Position.Before.not_le {p q : Position} (h : p.Before q) : q.le p = false := by
  rw [← Bool.not_eq_true, le_iff]
  rintro (rfl | hqp)
  · exact h.ne rfl
  · exact (h.trans hqp).ne rfl

/-- Of two lists of places that are both in order, one is moved to the other. -/
theorem exists_move {ps : List Position} : ∀ {qs : List Position}, qs.length = ps.length →
    ps.Pairwise Position.Before → qs.Pairwise Position.Before →
    ∃ φ : Position → Position, qs = ps.map φ ∧
      ∀ p ∈ ps, ∀ q ∈ ps, (φ p).le (φ q) = p.le q := by
  induction ps with
  | nil =>
    intro qs hlength _ _
    exact ⟨id, List.length_eq_zero_iff.1 hlength, nofun⟩
  | cons p ps ih =>
    intro qs hlength hps hqs
    obtain ⟨q, qs, rfl⟩ := List.exists_cons_of_length_eq_add_one hlength
    obtain ⟨hp, hps⟩ := List.pairwise_cons.1 hps
    obtain ⟨hq, hqs⟩ := List.pairwise_cons.1 hqs
    obtain ⟨φ, rfl, hle⟩ := ih (Nat.succ.inj hlength) hps hqs
    have hother : ∀ x ∈ ps, (if x = p then q else φ x) = φ x :=
      fun x hx => if_neg (hp x hx).ne.symm
    have hbefore : ∀ x ∈ ps, q.Before (φ x) := fun x hx => hq _ (List.mem_map_of_mem hx)
    refine ⟨fun x => if x = p then q else φ x, ?_, ?_⟩
    · rw [List.map_cons, if_pos rfl, List.map_congr_left hother]
    · intro x hx y hy
      simp only [List.mem_cons] at hx hy
      rcases hx with rfl | hx
      · rcases hy with rfl | hy
        · simp only [Position.le_refl]
        · simp only [if_true, hother y hy, (hbefore y hy).le, (hp y hy).le]
      · rcases hy with rfl | hy
        · simp only [if_true, hother x hx, (hbefore x hx).not_le, (hp x hx).not_le]
        · simp only [hother x hx, hother y hy, hle x hx y hy]

/-! ## Warnings in two texts -/

/-- Every warning is about a place where a node stands. -/
theorem Program.warning_pos_mem {p : Program} {w : Warning}
    (h : w ∈ Tracker.start.warnings p.events) : w.pos ∈ p.marks.map (·.pos) := by
  have hcalled : w ∈ calledFor [] p.events :=
    (Tracker.warnings_perm p.events Tracker.follows_start).mem_iff.1 h
  have hevent : w.pos ∈ p.events.map Event.pos :=
    (calledFor_pos_sublist p.events []).subset (List.mem_map_of_mem hcalled)
  have hname : w.pos ∈ namePlaces p.body.marks := p.body.pos_events_perm.mem_iff.1 hevent
  exact List.mem_cons_of_mem _ ((namePlaces_sublist _).subset hname)

theorem Program.exists_move {limit limit' : Nat} {t t' : Text} {p p' : Program}
    (h : Program.parse limit t = .ok p) (h' : Program.parse limit' t' = .ok p')
    (hbare : p'.bare = p.bare) :
    ∃ φ : Position → Position, p'.events = p.events.map (Event.move φ) ∧
      ∀ q ∈ p.marks.map (·.pos), ∀ q' ∈ p.marks.map (·.pos), (φ q).le (φ q') = q.le q' := by
  have hbody : p'.body.bare = p.body.bare := congrArg Program.body hbare
  have hlength : (p'.marks.map (·.pos)).length = (p.marks.map (·.pos)).length := by
    simp only [Program.marks, List.length_map, List.length_cons, ← p'.body.length_marks_bare, hbody,
      p.body.length_marks_bare]
  obtain ⟨φ, hmap, hle⟩ := BlockCalc.exists_move hlength (Program.ascending_marks h)
    (Program.ascending_marks h')
  have hmoved : Moved φ p.marks p'.marks := hmap.trans List.map_map
  exact ⟨φ, p.body.events_move hbody hmoved.cons.2, hle⟩

/-- The same program in two texts gets the same warnings in the same order. -/
theorem Program.messages_congr {limit limit' : Nat} {t t' : Text} {p p' : Program}
    (h : Program.parse limit t = .ok p) (h' : Program.parse limit' t' = .ok p')
    (hbare : p'.bare = p.bare) :
    p'.warnings.map Warning.message = p.warnings.map Warning.message := by
  obtain ⟨φ, hevents, hle⟩ := Program.exists_move h h' hbare
  have hwarnings : p'.warnings = p.warnings.map (Warning.move φ) := by
    have hstart : Tracker.start = Tracker.start.move φ := rfl
    rw [Program.warnings, hevents, hstart, Tracker.warnings_move]
    refine (List.map_mergeSort fun v hv w hw => ?_).symm
    exact (hle _ (Program.warning_pos_mem hv) _ (Program.warning_pos_mem hw)).symm
  rw [hwarnings, List.map_map]
  exact List.map_congr_left fun w _ => Warning.message_move φ w

/-! ## Runs of two texts -/

/-- Two runs both succeed, or they fail in the same way, at whatever places. -/
inductive FailAlike : Option EvalError → Option EvalError → Prop where
  | none : FailAlike none none
  | undefined (x : String) (p q : Position) :
      FailAlike (some (.undefined x p)) (some (.undefined x q))
  | arithmetic (op : TokenKind) (cause : ArithError) (p q : Position) :
      FailAlike (some (.arithmetic op cause p)) (some (.arithmetic op cause q))

theorem EvalError.Ordinary.failAlike {f f' : EvalError} (h : f.Ordinary)
    (hbare : f'.bare = f.bare) : FailAlike (some f) (some f') := by
  cases h with
  | undefined x p =>
    cases f' <;> simp only [bare, undefined.injEq, and_true, reduceCtorEq] at hbare
    subst hbare
    exact .undefined _ _ _
  | arithmetic op cause p =>
    cases f' <;> simp only [bare, arithmetic.injEq, and_true, reduceCtorEq] at hbare
    obtain ⟨rfl, rfl⟩ := hbare
    exact .arithmetic _ _ _ _

theorem Engine.run_congr {e : Engine} {t t' : Text} {p p' : Program} (h : e.parse t = .ok p)
    (h' : e.parse t' = .ok p') (hbare : p'.bare = p.bare) :
    ∃ env fault fault', e.run t = .ran p env fault ∧ e.run t' = .ran p' env fault' ∧
      FailAlike fault fault' := by
  have hcongr := Program.eval_congr hbare e.division Env.empty
  rw [p'.eval_toTree, p.eval_toTree] at hcongr
  have hrun := Engine.run_of_parse h
  have hrun' := Engine.run_of_parse h'
  rcases Evaluated.cases_of_bare_eq hcongr with ⟨v, env, hp, hp'⟩ | ⟨f, f', env, hf, hp, hp'⟩
  · rw [hp] at hrun
    rw [hp'] at hrun'
    exact ⟨env, none, none, hrun, hrun', .none⟩
  · rw [hp] at hrun
    rw [hp'] at hrun'
    have hord : f.Ordinary := by
      rcases e.run_cases t with ⟨r, hr⟩ | ⟨_, _, hr⟩ | ⟨_, _, g, hr, hord⟩
      · cases hrun.symm.trans hr
      · cases hrun.symm.trans hr
      · cases hrun.symm.trans hr
        exact hord
    exact ⟨env, some f, some f', hrun, hrun', hord.failAlike hf⟩

/-- Formatting keeps what a program does and what is said about it. With any engine that accepts the
source, the canonical source is run to the same environment and with the same success, or fails in
the same way, and has the same warnings in the same order. -/
theorem Engine.run_formatSource {e : Engine} {t f : Text} {p : Program}
    (hf : formatSource t = .ok f) (hp : e.parse t = .ok p) :
    ∃ p', e.parse f = .ok p' ∧
      (∃ env fault fault', e.run t = .ran p env fault ∧ e.run f = .ran p' env fault' ∧
        FailAlike fault fault') ∧
      p'.warnings.map Warning.message = p.warnings.map Warning.message := by
  obtain rfl : f = Text.ofString p.layout := by
    unfold formatSource at hf
    split at hf
    · cases hf
    · rename_i q hq
      cases hf
      rw [Program.parse_unique hp hq]
  obtain ⟨hwf, hn⟩ := Program.wellFormed_of_parse hp
  obtain ⟨p', hp', hbare⟩ := Program.parse_layout hwf hn
  exact ⟨p', hp', Engine.run_congr hp hp' hbare, Program.messages_congr hp hp' hbare⟩

/-- The source is cut and put together otherwise. The run still ends at the name that is read first,
and there are three warnings, the first of them about a write. -/
theorem Engine.run_formatSource_quotient :
    let e : Engine := ⟨2, .floor⟩
    let t := Text.ofString "BEGIN x:=1;x:=(a-1)/(b);\n\ny:=x END."
    let f := Text.ofString "BEGIN\n  x := 1;\n  x := (a - 1) / b;\n  y := x\nEND.\n"
    formatSource t = .ok f ∧ ∃ p p' env q, e.parse t = .ok p ∧ e.parse f = .ok p' ∧
      e.run t = .ran p env (some (.undefined "a" ⟨1, 16⟩)) ∧
      e.run f = .ran p' env (some (.undefined "a" q)) ∧ p.warnings.length = 3 ∧
      p'.warnings.map Warning.message = p.warnings.map Warning.message := by
  intro e t f
  have hformat : (formatSource t).toOption.map id = some f := by decide +kernel
  obtain ⟨_, hf, rfl⟩ := exists_of_toOption_map hformat
  have h : (e.parse t).toOption.map (fun p =>
      ((Tracker.start.warnings p.events).length,
        (Tree.evalAll .floor (p.assignments.map Assignment.toTree) Env.empty).fault?)) =
        some (3, some (.undefined "a" ⟨1, 16⟩)) := by decide +kernel
  obtain ⟨p, hp, hw⟩ := exists_of_toOption_map h
  obtain ⟨hlength, hfault⟩ := Prod.mk.inj hw
  have hrun := Engine.run_of_parse hp
  simp only [e, hfault] at hrun
  obtain ⟨p', hp', ⟨env, fault, fault', ht, hf', halike⟩, hmessages⟩ :=
    Engine.run_formatSource hf hp
  obtain ⟨-, -, rfl⟩ := RunResult.ran.inj (ht.symm.trans hrun)
  have hthree : p.warnings.length = 3 := by rw [Program.warnings, List.length_mergeSort, hlength]
  cases halike with
  | undefined _ _ q => exact ⟨hf, p, p', env, q, hp, hp', ht, hf', hthree, hmessages⟩

end BlockCalc
