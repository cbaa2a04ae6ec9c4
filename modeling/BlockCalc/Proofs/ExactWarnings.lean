import Mathlib.Data.List.Basic
import BlockCalc.Proofs.Unassigned

/-!
# BlockCalc.Proofs.ExactWarnings

The warnings of a program are those that the events of its run call for, each once.

A read is complained of when it comes up. A write is complained of only when the next one on its
name comes up, so along a run some warnings are still owed: those of the unread writes that will be
overwritten. One step pays as much as it adds (`Tracker.step_perm`): what it warns of and what is
owed after it are what was owed before it and what its event calls for. By the end of the run
nothing is owed (`Tracker.warnings_perm`).

Every event of an accepted program has a place of its own, so the list by places is strictly
ascending.
-/

namespace BlockCalc

/-! ## What a run calls for -/

namespace Event

def name : Event → String
  | .read x _ => x
  | .write x _ => x

def pos : Event → Position
  | .read _ p => p
  | .write _ p => p

def isWrite : Event → Bool
  | .read _ _ => false
  | .write _ _ => true

end Event

/-- Some event writes `x`. -/
def anyWrites (x : String) (es : List Event) : Bool := es.any fun e => e.isWrite && e.name == x

/-- The first event on `x` is a write. -/
def nextWrites (x : String) (es : List Event) : Bool := (es.find? (·.name == x)).any Event.isWrite

/-- The warning that an event calls for, given the events before and after it: a read, when no
write of its name comes before; a write, when the next event on its name is another one. -/
def Event.warning? (before after : List Event) : Event → Option Warning
  | .read x p => if anyWrites x before then none else some ⟨p, x, .readBeforeAssigned⟩
  | .write x p => if nextWrites x after then some ⟨p, x, .overwrittenUnread⟩ else none

/-- The warnings that the events of a run call for one after another, where those `before` have
passed. -/
def calledFor (before : List Event) : List Event → List Warning
  | [] => []
  | e :: after => (e.warning? before after).toList ++ calledFor (before ++ [e]) after

section

variable (x y : String) (p : Position) (es : List Event)

theorem anyWrites_snoc_read : anyWrites x (es ++ [.read y p]) = anyWrites x es := by
  simp [anyWrites, Event.isWrite]

theorem anyWrites_snoc_write :
    anyWrites x (es ++ [.write y p]) = (y == x || anyWrites x es) := by
  simp [anyWrites, Event.isWrite, Event.name, Bool.or_comm]

theorem nextWrites_read : nextWrites x (.read y p :: es) = (y != x && nextWrites x es) := by
  by_cases h : y = x <;> simp [nextWrites, Event.name, Event.isWrite, h]

theorem nextWrites_write : nextWrites x (.write y p :: es) = (y == x || nextWrites x es) := by
  by_cases h : y = x <;> simp [nextWrites, Event.name, Event.isWrite, h]

end

theorem Event.pos_of_warning? {before after : List Event} {e : Event} {w : Warning}
    (h : e.warning? before after = some w) : w.pos = e.pos := by
  cases e with
  | read x p =>
    simp only [warning?] at h
    split at h
    · cases h
    · cases h; rfl
  | write x p =>
    simp only [warning?] at h
    split at h
    · cases h; rfl
    · cases h

theorem calledFor_pos_sublist (es : List Event) : ∀ before : List Event,
    ((calledFor before es).map (·.pos)).Sublist (es.map Event.pos) := by
  induction es with
  | nil => intro before; exact .slnil
  | cons e es ih =>
    intro before
    have hfirst : ((e.warning? before es).toList.map (·.pos)).Sublist [e.pos] := by
      cases h : e.warning? before es with
      | none => exact List.nil_sublist _
      | some w => rw [Option.toList_some, List.map_singleton, Event.pos_of_warning? h]
    rw [calledFor, List.map_append, List.map_cons]
    exact hfirst.append (ih _)

/-! ## What is owed along a run -/

/-- In a table without repeated names, the entry of `x` can be taken out of those selected. -/
theorem filter_or_perm {α : Type} {x : String} (c : String → Bool) {l : List (String × α)}
    (h : (l.map (·.1)).Nodup) :
    (l.filter fun b => x == b.1 || c b.1).Perm
      ((l.lookup x).toList.map (x, ·) ++ (l.filter (·.1 != x)).filter fun b => c b.1) := by
  induction l with
  | nil => exact .refl _
  | cons b l ih =>
    obtain ⟨y, a⟩ := b
    obtain ⟨hy, hl⟩ := List.nodup_cons.1 h
    by_cases hxy : x = y
    · subst hxy
      have hother : ∀ b ∈ l, b.1 ≠ x := by
        rintro b hb rfl
        exact hy (List.mem_map.2 ⟨b, hb, rfl⟩)
      have hselect : l.filter (fun b => x == b.1 || c b.1) = l.filter fun b => c b.1 :=
        List.filter_congr fun b hb => by simp [(hother b hb).symm]
      have hkeep : l.filter (·.1 != x) = l :=
        List.filter_eq_self.2 fun b hb => by simpa using hother b hb
      simp [hselect, hkeep]
    · rw [List.filter_cons, List.lookup_cons, beq_false_of_ne hxy, Bool.false_or,
        List.filter_cons_of_pos (by simpa using Ne.symm hxy), List.filter_cons]
      split
      · exact ((ih hl).cons _).trans List.perm_middle.symm
      · exact ih hl

namespace Tracker

/-- The tracker knows what has been written, and of no name two unread writes. -/
structure Follows (k : Tracker) (before : List Event) : Prop where
  written : ∀ x, k.written.contains x = anyWrites x before
  unread : (k.unread.map (·.1)).Nodup

theorem follows_start : start.Follows [] := ⟨fun _ => rfl, .nil⟩

theorem Follows.step {k : Tracker} {before : List Event} (h : k.Follows before) (e : Event) :
    (k.step e).1.Follows (before ++ [e]) := by
  have hkept : ∀ x : String, ((k.unread.filter (·.1 != x)).map (·.1)).Nodup := fun x =>
    h.unread.sublist (List.filter_sublist.map _)
  cases e with
  | read x p =>
    refine ⟨fun y => ?_, hkept x⟩
    rw [anyWrites_snoc_read]
    exact h.written y
  | write x p =>
    refine ⟨fun y => ?_, List.nodup_cons.2 ⟨by simp, hkept x⟩⟩
    rw [anyWrites_snoc_write, ← h.written y, Bool.beq_comm]
    exact List.contains_cons

/-- The warning that the write of a name at a place is overwritten. -/
def overwriting (b : String × Position) : Warning := ⟨b.2, b.1, .overwrittenUnread⟩

/-- The warnings of the unread writes that the events to come overwrite. -/
def owed (k : Tracker) (es : List Event) : List Warning :=
  (k.unread.filter fun b => nextWrites b.1 es).map overwriting

theorem owed_nil (k : Tracker) : k.owed [] = [] := by
  simp [owed, nextWrites]

theorem owed_read (k : Tracker) (x : String) (p : Position) (es : List Event) :
    k.owed (.read x p :: es) = (k.step (.read x p)).1.owed es := by
  simp only [owed, Tracker.step, List.filter_filter, nextWrites_read, Bool.and_comm, bne_comm]

theorem warning_write (k : Tracker) (x : String) (p : Position) :
    (k.step (.write x p)).2 = (k.unread.lookup x).map fun q => overwriting (x, q) := by
  simp only [Tracker.step]
  cases k.unread.lookup x <;> rfl

/-- A write brings up the warning of the last one on its name, if that is unread. -/
theorem owed_write {k : Tracker} {before : List Event} (h : k.Follows before) (x : String)
    (p : Position) (es : List Event) :
    (k.owed (.write x p :: es)).Perm ((k.step (.write x p)).2.toList ++
      ((k.unread.filter (·.1 != x)).filter fun b => nextWrites b.1 es).map overwriting) := by
  have hperm := (filter_or_perm (x := x) (nextWrites · es) h.unread).map overwriting
  rw [List.map_append, List.map_map] at hperm
  simp only [owed, nextWrites_write]
  rw [warning_write, Option.toList_map]
  exact hperm

theorem owed_step_write (k : Tracker) (before : List Event) (x : String) (p : Position)
    (es : List Event) :
    (k.step (.write x p)).1.owed es = ((Event.write x p).warning? before es).toList ++
      ((k.unread.filter (·.1 != x)).filter fun b => nextWrites b.1 es).map overwriting := by
  simp only [owed, Tracker.step, Event.warning?, List.filter_cons]
  split <;> rfl

/-- What a step warns of and what is owed after it are what was owed before it and what its event
calls for. -/
theorem step_perm {k : Tracker} {before : List Event} (h : k.Follows before) (e : Event)
    (es : List Event) :
    ((k.step e).2.toList ++ (k.step e).1.owed es).Perm
      (k.owed (e :: es) ++ (e.warning? before es).toList) := by
  cases e with
  | read x p =>
    have hwarning : (k.step (.read x p)).2 = (Event.read x p).warning? before es := by
      simp only [Tracker.step, Event.warning?, h.written]
    rw [k.owed_read, hwarning]
    exact List.perm_append_comm
  | write x p =>
    rw [k.owed_step_write before]
    refine .trans ?_ ((owed_write h x p es).symm.append_right _)
    rw [List.append_assoc]
    exact List.perm_append_comm.append_left _

/-- Along a run, the warnings are those that are owed and those that the events call for. -/
theorem warnings_perm (es : List Event) : ∀ {k : Tracker} {before : List Event},
    k.Follows before → (k.warnings es).Perm (k.owed es ++ calledFor before es) := by
  induction es with
  | nil =>
    intro k before _
    rw [owed_nil]
    exact .refl _
  | cons e es ih =>
    intro k before h
    rw [warnings_cons, calledFor, ← List.append_assoc]
    have hrest := (ih (h.step e)).append_left (k.step e).2.toList
    rw [← List.append_assoc] at hrest
    exact hrest.trans ((step_perm h e es).append_right _)

end Tracker

/-! ## The places of events -/

/-- The places of the names among the marks. -/
def namePlaces (ms : List Mark) : List Position :=
  (ms.filter fun m => m.kind = .ident).map (·.pos)

theorem namePlaces_sublist (ms : List Mark) : (namePlaces ms).Sublist (ms.map (·.pos)) :=
  List.filter_sublist.map _

theorem namePlaces_append (ms ns : List Mark) :
    namePlaces (ms ++ ns) = namePlaces ms ++ namePlaces ns := by
  rw [namePlaces, List.filter_append, List.map_append, namePlaces, namePlaces]

theorem namePlaces_cons {m : Mark} (h : m.kind ≠ .ident) (ms : List Mark) :
    namePlaces (m :: ms) = namePlaces ms := by
  rw [namePlaces, List.filter_cons_of_neg (by simpa using h), namePlaces]

theorem Expr.pos_reads (e : Expr) : e.reads.map Event.pos = namePlaces e.marks := by
  rw [e.reads_eq, namePlaces]
  induction e.marks with
  | nil => rfl
  | cons m ms ih => by_cases h : m.kind = .ident <;> simp [Mark.read?, h, ih, Event.pos]

mutual

/-- An assignment writes its target after it has read the names that stand to the right of it. -/
theorem Stmt.pos_events_perm : ∀ s : Stmt, (s.events.map Event.pos).Perm (namePlaces s.marks)
  | .block p b => by
    rw [Stmt.marks, namePlaces_cons (by simp)]
    exact b.pos_events_perm
  | .assign x q e p => by
    rw [Stmt.events, List.map_append, e.pos_reads]
    exact List.perm_append_singleton _ _
  | .empty p => .refl _

theorem Stmts.pos_events_perm : ∀ b : Stmts, (b.events.map Event.pos).Perm (namePlaces b.marks)
  | .one s => s.pos_events_perm
  | .cons s b => by
    rw [Stmts.events, List.map_append, Stmts.marks, namePlaces_append]
    exact s.pos_events_perm.append b.pos_events_perm

end

/-- No two events of an accepted program have the same place. -/
theorem Program.nodup_pos_events {limit : Nat} {t : Text} {p : Program}
    (h : Program.parse limit t = .ok p) : (p.events.map Event.pos).Nodup := by
  have hmarks : (p.marks.map (·.pos)).Nodup := (Program.ascending_marks h).imp Position.Before.ne
  have hnames : (namePlaces p.body.marks).Sublist (p.marks.map (·.pos)) :=
    (namePlaces_sublist _).trans ((List.sublist_cons_self _ _).map _)
  exact p.body.pos_events_perm.nodup_iff.2 (hmarks.sublist hnames)

/-! ## Programs -/

theorem Program.warnings_perm (p : Program) :
    p.warnings.Perm (calledFor [] (p.assignments.flatMap Assignment.events)) := by
  have hperm := Tracker.warnings_perm p.events Tracker.follows_start
  rw [Program.assignments, ← p.body.events_eq]
  exact (List.mergeSort_perm _ _).trans hperm

/-- A program is warned of the reads before which nothing has been written to their name, and of the
writes whose next event on the same name is another write: once for each of them, at its place,
and of nothing else. The list is strictly ascending by place. -/
theorem Engine.warnings_exact {e : Engine} {t : Text} {p : Program} (h : e.parse t = .ok p) :
    p.warnings.Perm (calledFor [] (p.assignments.flatMap Assignment.events)) ∧
      p.warnings.Pairwise fun v w => v.pos.Before w.pos := by
  refine ⟨p.warnings_perm, ?_⟩
  have hsorted : p.warnings.Pairwise fun v w => v.pos.le w.pos = true := by
    refine List.pairwise_mergeSort ?_ ?_ _
    · exact fun _ _ _ => Position.le_trans
    · exact fun _ _ => Position.le_total _ _
  have hplaces : (p.warnings.map (·.pos)).Nodup := by
    refine (p.warnings_perm.map _).nodup_iff.2 (List.Nodup.sublist (calledFor_pos_sublist _ _) ?_)
    rw [Program.assignments, ← p.body.events_eq]
    exact Program.nodup_pos_events h
  refine (hsorted.and (List.pairwise_map.1 hplaces)).imp fun hvw => ?_
  exact (Position.le_iff.1 hvw.1).resolve_left hvw.2

/-- Two reads of one unassigned name, and a chain of writes of which the second is read by the
third. -/
theorem Engine.warnings_exact_chain :
    let t := Text.ofString "BEGIN x := a + a; x := 1; BEGIN x := x + b END; x := 2; y := x END."
    ∃ p, (⟨2, .floor⟩ : Engine).parse t = .ok p ∧
      p.warnings = [⟨⟨1, 7⟩, "x", .overwrittenUnread⟩, ⟨⟨1, 12⟩, "a", .readBeforeAssigned⟩,
        ⟨⟨1, 16⟩, "a", .readBeforeAssigned⟩, ⟨⟨1, 33⟩, "x", .overwrittenUnread⟩,
        ⟨⟨1, 42⟩, "b", .readBeforeAssigned⟩] := by
  intro t
  have h : ((⟨2, .floor⟩ : Engine).parse t).toOption.map (fun p =>
      calledFor [] (p.assignments.flatMap Assignment.events)) =
        some [⟨⟨1, 12⟩, "a", .readBeforeAssigned⟩, ⟨⟨1, 16⟩, "a", .readBeforeAssigned⟩,
          ⟨⟨1, 7⟩, "x", .overwrittenUnread⟩, ⟨⟨1, 42⟩, "b", .readBeforeAssigned⟩,
          ⟨⟨1, 33⟩, "x", .overwrittenUnread⟩] := by
    decide +kernel
  obtain ⟨p, hp, hcalled⟩ := exists_of_toOption_map h
  obtain ⟨hperm, hascending⟩ := Engine.warnings_exact hp
  rw [hcalled] at hperm
  refine ⟨p, hp, ?_⟩
  refine List.Perm.eq_of_pairwise ?_ hascending ?_ (hperm.trans ?_)
  · intro v w _ _ hvw hwv
    exact absurd rfl (hvw.trans hwv).ne
  · simp [Position.Before]
  · decide

end BlockCalc
