import BlockCalc.Proofs.Completion
import BlockCalc.Proofs.Faults

/-!
# BlockCalc.Proofs.Detection

How a text is taken for a program or for an expression. Every program begins with `BEGIN` and no
expression does, so the first token tells which of the two the text can be at most, and the text is
run as that. Nothing is lost by this: a text that is rejected as what it was taken for would be
rejected as the other too (`Engine.exec_lossless`).
-/

namespace BlockCalc

open Grammar

theorem Grammar.Derives.program_head {p : Program} {ts : List Token} {n : Nat}
    (h : Derives (.program p) ts n) : ∃ q rest, ts = ⟨.beginWord, q⟩ :: rest := by
  cases h with
  | program h =>
    cases h with
    | compound h => exact ⟨_, _, rfl⟩

/-- A token that no factor begins with is not the first of an expression. -/
theorem Reader.loneExpression_other {r : Reader} {t : Token} {rest : List Token}
    (h : t.lexeme.kind ∉ TokenKind.factorStart) :
    r.loneExpression (t :: rest) = .error (r.unexpected TokenKind.factorStart (t :: rest)) := by
  simp only [loneExpression, expression, expressionOf, level, factor_other h]

namespace Engine

variable {e : Engine} {t : Text}

theorem detectMode_of_parse {p : Program} (h : e.parse t = .ok p) : detectMode t = .program := by
  obtain ⟨ts, ⟨q, hq⟩, n, _, hd⟩ := Program.parse_eq_ok_iff.1 h
  obtain ⟨place, rest, rfl⟩ := hd.program_head
  exact detectMode_eq_program.2 ⟨place, rest, by rw [hq]⟩

theorem detectMode_of_parseExpression {x : Expr} (h : e.parseExpression t = .ok x) :
    detectMode t = .expression := by
  cases hmode : detectMode t with
  | expression => rfl
  | program =>
    have hbegin : Lexeme.beginWord.kind ∉ TokenKind.factorStart := by decide
    obtain ⟨p, ts, hts⟩ := detectMode_eq_program.1 hmode
    rw [parseExpression, Expr.parse, hts, Reader.loneExpression_other hbegin] at h
    cases h

theorem exec_of_program (h : detectMode t = .program) : e.exec t = .program (e.run t) := by
  rw [exec, h]

theorem exec_of_expression (h : detectMode t = .expression) :
    e.exec t = .expression (e.eval t) := by
  rw [exec, h]

theorem run_rejected_iff (e : Engine) (t : Text) :
    (∃ f, (e.run t).failure? = some f ∧ (f.kind? = some .lex ∨ f.kind? = some .parse)) ↔
      ∀ p, e.parse t ≠ .ok p := by
  rw [← env?_run_eq_none]
  cases hp : e.parse t with
  | error r => simp [run, hp, RunResult.env?]
  | ok p => simp [run_of_parse hp, RunResult.env?]

theorem eval_rejected_iff (e : Engine) (t : Text) :
    (∃ f, (ExecResult.expression (e.eval t)).failure? = some f ∧
      (f.kind? = some .lex ∨ f.kind? = some .parse)) ↔ ∀ x, e.parseExpression t ≠ .ok x := by
  constructor
  · rintro ⟨f, hf, hkind⟩ x hx
    have heval := eval_of_parseExpression hx
    rcases x.eval_cases e.division Env.empty with ⟨v, hvalue⟩ | ⟨g, hvalue⟩
    · rw [heval.1 v hvalue] at hf
      cases hf
    · rw [heval.2 g hvalue] at hf
      cases hf
      cases Engine.ordinary_of_eval hx hvalue <;> simp [Failure.kind?] at hkind
  · intro h
    cases hx : e.parseExpression t with
    | ok x => exact absurd hx (h x)
    | error r =>
      rw [eval, hx]
      exact ⟨_, rfl, Failure.kind?_rejected r⟩

/-- Not both parsers accept a text. The one that accepts it is the one that it is run with, so the
result is that of the run or of the evaluation. The text fails by the scanner or by the parser
exactly when neither accepts it. -/
theorem exec_lossless (e : Engine) (t : Text) :
    ((∀ p, e.parse t ≠ .ok p) ∨ ∀ x, e.parseExpression t ≠ .ok x) ∧
    (∀ p, e.parse t = .ok p → e.exec t = .program (e.run t)) ∧
    (∀ x, e.parseExpression t = .ok x → e.exec t = .expression (e.eval t)) ∧
    ((∃ f, (e.exec t).failure? = some f ∧ (f.kind? = some .lex ∨ f.kind? = some .parse)) ↔
      (∀ p, e.parse t ≠ .ok p) ∧ ∀ x, e.parseExpression t ≠ .ok x) := by
  -- the mode rules out one of the parsers, and the text is run with the other
  cases hmode : detectMode t with
  | program =>
    have hnone : ∀ x, e.parseExpression t ≠ .ok x := by
      intro x hx
      cases hmode.symm.trans (detectMode_of_parseExpression hx)
    rw [exec_of_program hmode]
    exact ⟨.inr hnone, fun _ _ => rfl, fun x hx => absurd hx (hnone x),
      (e.run_rejected_iff t).trans (and_iff_left hnone).symm⟩
  | expression =>
    have hnone : ∀ p, e.parse t ≠ .ok p := by
      intro p hp
      cases hmode.symm.trans (detectMode_of_parse hp)
    rw [exec_of_expression hmode]
    exact ⟨.inl hnone, fun p hp => absurd hp (hnone p), fun _ _ => rfl,
      (e.eval_rejected_iff t).trans (and_iff_right hnone).symm⟩

/-- A program that faults, a name that begins like the keyword, and a program without its dot. -/
theorem exec_lossless_begin :
    let e : Engine := ⟨1, .floor⟩
    let program := Text.ofString "\nBEGIN x := 1; y := x / 0 END."
    let expression := Text.ofString "BEGINS * 2"
    let unfinished := Text.ofString "BEGIN x := 1 END"
    e.exec program = .program (e.run program) ∧
      e.exec expression = .expression (e.eval expression) ∧
      (∀ p, e.parse unfinished ≠ .ok p) ∧ ∀ x, e.parseExpression unfinished ≠ .ok x := by
  intro e program expression unfinished
  have hprogram : (e.parse program).toOption.map (·.assignments.length) = some 2 := by
    decide +kernel
  have hexpression : (e.parseExpression expression).toOption.map (·.toTree.pos) = some ⟨1, 8⟩ := by
    decide +kernel
  have hunfinished : (e.exec unfinished).failure? =
      some (.rejected (.parse ⟨⟨1, 17⟩, none, .expected [.dot]⟩)) := by
    decide +kernel
  obtain ⟨p, hp, -⟩ := exists_of_toOption_map hprogram
  obtain ⟨x, hx, -⟩ := exists_of_toOption_map hexpression
  exact ⟨(exec_lossless e program).2.1 p hp, (exec_lossless e expression).2.2.1 x hx,
    (exec_lossless e unfinished).2.2.2.1 ⟨_, hunfinished, .inr rfl⟩⟩

end Engine
end BlockCalc
