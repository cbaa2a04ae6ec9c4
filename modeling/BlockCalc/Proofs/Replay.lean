import BlockCalc.Proofs.Alike
import BlockCalc.Proofs.Bytes
import BlockCalc.Proofs.Detection
import BlockCalc.Proofs.ReadingPlaces

/-!
# BlockCalc.Proofs.Replay

An entry that is run again from the history stands on one line. Only the places of its tokens, and
of its fault if it has one, are then others (`Scan.bare_oneLine`): a newline and a space both end a
lexeme, and neither can mend a text that has no token. So the entry fails as it did before, for the
same cause, or gives the same answer (`Session.evaluate_oneLine`).
-/

namespace BlockCalc

/-! ## Scans without their places -/

namespace Scan

/-- The scan of a text that goes on after a blank: a fault is final, and an end is not. -/
def followedBy (s s' : Scan) : Scan :=
  match s.stop with
  | .fault _ => s
  | .eof _ => ⟨s.tokens ++ s'.tokens, s'.stop⟩

theorem bare_followedBy (s s' : Scan) : (s.followedBy s').bare = s.bare.followedBy s'.bare := by
  obtain ⟨tokens, stop⟩ := s
  cases stop with
  | fault e => rfl
  | eof p => simp only [followedBy, bare, Stop.bare, List.map_append]

end Scan

namespace Cursor

theorem scan_followedBy {b : Glyph} (hb : b.isBlank = true) (t u : Text) (p : Position) :
    ∃ q, scan ⟨t ++ b :: u, p⟩ = (scan ⟨t, p⟩).followedBy (scan ⟨u, q⟩) := by
  cases hstop : (scan ⟨t, p⟩).stop with
  | fault e =>
    refine ⟨p, ?_⟩
    rw [Scan.followedBy, hstop]
    exact scan_append_fault hb u ⟨t, p⟩ hstop
  | eof q =>
    refine ⟨q.after b, ?_⟩
    rw [Scan.followedBy, hstop]
    exact scan_append_eof hb u ⟨t, p⟩ hstop

/-- Where a text begins makes no difference but to places. -/
theorem scan_bare (c : Cursor) : ∀ q : Position, (scan ⟨c.rest, q⟩).bare = c.scan.bare := by
  -- what a step does is told by the text alone, and the same witnesses serve both places
  induction c using scan_induction with
  | @token c after t h ih =>
    intro q
    obtain ⟨w, hw, hrest, hl, hbreaks, -, -⟩ := step_token_iff.1 h
    have hstep : step ⟨c.rest, q⟩ =
        .token ⟨t.lexeme, q.past w⟩ ⟨after.rest, (q.past w).past t.lexeme.glyphs⟩ :=
      step_token_iff.2 ⟨w, hw, hrest, hl, hbreaks, rfl, rfl⟩
    have hafter := Scan.mk.inj (ih ((q.past w).past t.lexeme.glyphs))
    rw [scan_token hstep, scan_token h]
    simp only [Scan.bare, List.map_cons, Token.bare, hafter]
  | @stop c s h =>
    intro q
    cases s with
    | eof p =>
      obtain ⟨hblanks, -⟩ := step_eof_iff.1 h
      have hstep : step ⟨c.rest, q⟩ = .stop (.eof (q.past c.rest)) :=
        step_eof_iff.2 ⟨hblanks, rfl⟩
      rw [scan_stop hstep, scan_stop h]
      rfl
    | fault e =>
      obtain ⟨w, rest, hw, hrest, hstop, hno, -⟩ := step_fault_iff.1 h
      have hstep : step ⟨c.rest, q⟩ = .stop (.fault ⟨q.past w, e.cause⟩) :=
        step_fault_iff.2 ⟨w, rest, hw, hrest, hstop, hno, rfl⟩
      rw [scan_stop hstep, scan_stop h]
      rfl

end Cursor

namespace Scan

theorem bare_append {b : Glyph} (hb : b.isBlank = true) (t u : Text) :
    (ofText (t ++ b :: u)).bare = (ofText t).bare.followedBy (ofText u).bare := by
  obtain ⟨q, hq⟩ := Cursor.scan_followedBy hb t u .start
  calc (ofText (t ++ b :: u)).bare
      = ((ofText t).followedBy (Cursor.scan ⟨u, q⟩)).bare := congrArg bare hq
    _ = (ofText t).bare.followedBy (Cursor.scan ⟨u, q⟩).bare := bare_followedBy _ _
    _ = (ofText t).bare.followedBy (ofText u).bare := congrArg _ (Cursor.scan_bare (.ofText u) q)

theorem bare_oneLine (t : Text) : (ofText (Text.oneLine t)).bare = (ofText t).bare := by
  induction t using Text.lines_induction with
  | last h => rw [Text.oneLine_of_no_newline h]
  | line h ih =>
    rw [Text.oneLine_append, Text.oneLine_of_no_newline h, Text.oneLine_newline_cons,
      bare_append (by decide), bare_append isBlank_newline, ih]

end Scan

/-! ## Results without their places -/

/-- The failure without the place that it names. -/
def Failure.bare : Failure → Failure
  | .rejected r => .rejected r.bare
  | .faulted e => .faulted e.bare

theorem Failure.kind?_bare (f : Failure) : f.bare.kind? = f.kind? := by
  rcases f with r | e
  · cases r <;> rfl
  · cases e <;> rfl

def RunResult.bare : RunResult → RunResult
  | .rejected r => .rejected r.bare
  | .ran p env fault => .ran p.bare env (fault.map EvalError.bare)

namespace ExecResult

def bare : ExecResult → ExecResult
  | .expression r => .expression (r.mapError Failure.bare)
  | .program r => .program r.bare

theorem failure?_bare (r : ExecResult) : r.bare.failure? = r.failure?.map Failure.bare := by
  rcases r with (f | v) | (r | ⟨p, env, _ | f⟩) <;> rfl

theorem env?_bare (r : ExecResult) : r.bare.env? = r.env? := by
  rcases r with r | (r | ⟨p, env, fault⟩) <;> rfl

theorem answer_bare (r : ExecResult) : Session.answer r.bare = Session.answer r := by
  rcases r with (f | v) | (r | ⟨p, env, _ | f⟩) <;> rfl

end ExecResult

theorem detectMode_eq_program_iff_bare {t : Text} : detectMode t = .program ↔
    ∃ ts, (Scan.ofText t).bare.tokens = ⟨.beginWord, .nowhere⟩ :: ts := by
  rw [detectMode_eq_program]
  constructor
  · rintro ⟨p, ts, hts⟩
    exact ⟨ts.map Token.bare, by rw [Scan.bare, hts]; rfl⟩
  · rintro ⟨ts, hts⟩
    obtain ⟨⟨l, p⟩, us, hus, hl, -⟩ := List.map_eq_cons_iff.1 hts
    cases hl
    exact ⟨p, us, hus⟩

section

variable {t u : Text} (h : (Scan.ofText t).bare = (Scan.ofText u).bare)

include h

theorem detectMode_of_bare_eq : detectMode t = detectMode u := by
  have hiff : detectMode t = .program ↔ detectMode u = .program := by
    rw [detectMode_eq_program_iff_bare, detectMode_eq_program_iff_bare, h]
  cases ht : detectMode t <;> cases hu : detectMode u <;> simp_all

theorem Engine.run_of_bare_eq (e : Engine) : (e.run t).bare = (e.run u).bare := by
  rcases Rejection.cases_of_bare_eq (Program.parse_congr e.maxDepth h) with
    ⟨p, p', hp, hp', hbare⟩ | ⟨r, r', hr, hr', hbare⟩
  · simp only [Engine.run, Engine.parse, hp, hp']
    rcases Evaluated.cases_of_bare_eq (Program.eval_congr hbare e.division Env.empty) with
      ⟨_, _, hrun, hrun'⟩ | ⟨f, f', _, hf, hrun, hrun'⟩
    · simp only [hrun, hrun', RunResult.bare, hbare]
    · simp only [hrun, hrun', RunResult.bare, hbare, Option.map_some, hf]
  · simp only [Engine.run, Engine.parse, hr, hr', RunResult.bare, hbare]

theorem Engine.eval_of_bare_eq (e : Engine) :
    (e.eval t).mapError Failure.bare = (e.eval u).mapError Failure.bare := by
  rcases Rejection.cases_of_bare_eq (Expr.parse_congr e.maxDepth h) with
    ⟨x, x', hx, hx', hbare⟩ | ⟨r, r', hr, hr', hbare⟩
  · simp only [Engine.eval, Engine.parseExpression, hx, hx']
    rcases Evaluated.cases_of_bare_eq (Expr.asInt_congr hbare e.division Env.empty) with
      ⟨_, _, hrun, hrun'⟩ | ⟨f, f', _, hf, hrun, hrun'⟩
    · simp only [hrun, hrun']
    · simp only [hrun, hrun', Except.mapError, Failure.bare, hf]
  · simp only [Engine.eval, Engine.parseExpression, hr, hr', Except.mapError, Failure.bare, hbare]

/-- Texts whose scans differ in places at most have results that differ in places at most. -/
theorem Engine.exec_of_bare_eq (e : Engine) : (e.exec t).bare = (e.exec u).bare := by
  unfold Engine.exec
  rw [detectMode_of_bare_eq h]
  cases detectMode u with
  | program => exact congrArg ExecResult.program (e.run_of_bare_eq h)
  | expression => exact congrArg ExecResult.expression (e.eval_of_bare_eq h)

end

/-! ## The entry on one line -/

/-- A newline is one byte and a part of no other glyph, so it can be replaced among the bytes. -/
theorem Text.ofBytes_oneLine (bytes : List UInt8) :
    ofBytes (bytes.map fun b => if b = 10 then 32 else b) = oneLine (ofBytes bytes) := by
  have hnone : ∀ {bs : List UInt8}, 10 ∉ bs →
      (bs.map fun b => if b = 10 then 32 else b) = bs ∧ oneLine (ofBytes bs) = ofBytes bs := by
    intro bs h
    refine ⟨(List.map_congr_left fun b hb => if_neg ?_).trans (List.map_id bs),
      oneLine_of_no_newline fun hmem => h (ten_mem_of_newline_mem hmem)⟩
    rintro rfl
    exact h hb
  induction bytes using split_induction (10 : UInt8) with
  | last h => rw [(hnone h).1, (hnone h).2]
  | @line bs rest h ih =>
    rw [List.map_append, (hnone h).1, ofBytes_newline, oneLine_append, (hnone h).2,
      oneLine_newline_cons, ← ih]
    exact (ofBytes_append (by decide) bs _).trans (congrArg _ (ofBytes_ascii (by decide) _))

theorem Engine.exec_typed {e : Engine} {t : Text} {f : Failure}
    (h : (e.exec t).failure? = some f) : f.Typed := by
  cases hmode : detectMode t with
  | program =>
    rw [exec_of_program hmode] at h
    rcases e.run_typed t with ⟨p, env, hp⟩ | ⟨f', hf, htyped⟩
    · rw [hp] at h
      cases h
    · cases hf.symm.trans h
      exact htyped
  | expression =>
    rw [exec_of_expression hmode] at h
    rcases e.eval_typed t with ⟨v, hv⟩ | ⟨f', hf, htyped⟩
    · rw [hv] at h
      cases h
    · rw [hf] at h
      cases h
      exact htyped

theorem Session.evaluate_of_failure {s : Session} {t : Text} {f : Failure}
    (h : (s.engine.exec t).failure? = some f) : (s.evaluate t).1 = ⟨f.message t, true⟩ := by
  unfold evaluate
  cases he : (s.engine.exec t).env? <;> simp only [h, he]

theorem Session.evaluate_of_success {s : Session} {t : Text}
    (h : (s.engine.exec t).failure? = none) :
    (s.evaluate t).1 = ⟨answer (s.engine.exec t), false⟩ := by
  unfold evaluate
  cases he : (s.engine.exec t).env? <;> simp only [h, he]

/-- An entry is repeated by its line in the history, which has a space for each newline. Both
succeed with the same reply, or both fail with the same kind and for the same cause; and both
leave the same session, with the same bindings of the last program. -/
theorem Session.evaluate_oneLine (s : Session) (bytes : List UInt8) :
    let entry := Text.ofBytes bytes
    let line := Text.ofBytes (bytes.map fun b => if b = 10 then 32 else b)
    line = Text.oneLine entry ∧
    ((s.evaluate entry).1.isError = false ∧ (s.evaluate line).1 = (s.evaluate entry).1 ∨
      ∃ f f' k, (s.engine.exec entry).failure? = some f ∧
        (s.engine.exec line).failure? = some f' ∧
        (s.evaluate entry).1 = ⟨f.message entry, true⟩ ∧
        (s.evaluate line).1 = ⟨f'.message line, true⟩ ∧
        f.kind? = some k ∧ f'.kind? = some k ∧ f'.bare = f.bare) ∧
    (s.evaluate line).2 = (s.evaluate entry).2 := by
  intro entry line
  have hline : line = Text.oneLine entry := Text.ofBytes_oneLine bytes
  have hexec : (s.engine.exec line).bare = (s.engine.exec entry).bare :=
    s.engine.exec_of_bare_eq (by rw [hline, Scan.bare_oneLine])
  have hfailure := congrArg ExecResult.failure? hexec
  have henv := congrArg ExecResult.env? hexec
  have hanswer := congrArg answer hexec
  rw [ExecResult.failure?_bare, ExecResult.failure?_bare] at hfailure
  rw [ExecResult.env?_bare, ExecResult.env?_bare] at henv
  rw [ExecResult.answer_bare, ExecResult.answer_bare] at hanswer
  have hsession : (s.evaluate line).2 = (s.evaluate entry).2 := by
    rw [(s.evaluate_eq line).2, (s.evaluate_eq entry).2, ExecResult.verdict, ExecResult.verdict,
      henv]
  refine ⟨hline, ?_, hsession⟩
  cases hf : (s.engine.exec entry).failure? with
  | none =>
    rw [hf, Option.map_none, Option.map_eq_none_iff] at hfailure
    rw [evaluate_of_success hf, evaluate_of_success hfailure, hanswer]
    exact .inl ⟨rfl, rfl⟩
  | some f =>
    rw [hf, Option.map_some] at hfailure
    obtain ⟨f', hf', hbare⟩ := Option.map_eq_some_iff.1 hfailure
    obtain ⟨k, hk⟩ := Option.isSome_iff_exists.1 (Engine.exec_typed hf)
    have hk' : f'.kind? = some k := by rw [← f'.kind?_bare, hbare, f.kind?_bare, hk]
    exact .inr ⟨f, f', k, rfl, hf', evaluate_of_failure hf, evaluate_of_failure hf', hk, hk', hbare⟩

end BlockCalc
