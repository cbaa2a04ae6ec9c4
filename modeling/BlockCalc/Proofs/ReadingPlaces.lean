import BlockCalc.Proofs.Places
import BlockCalc.Proofs.Reading

/-!
# BlockCalc.Proofs.ReadingPlaces

Readers copy the places of tokens into what they return and do nothing else with them. Tokens
without their places are therefore read as the same tree without its places, or rejected for the
same cause (`Reader.program_bare`, `Reader.loneExpression_bare`). Texts whose scans differ in
places at most are accepted up to places or rejected up to places.
-/

namespace BlockCalc

def Token.bare (t : Token) : Token := ⟨t.lexeme, .nowhere⟩

def LexError.bare (e : LexError) : LexError := ⟨.nowhere, e.cause⟩

def ParseError.bare (e : ParseError) : ParseError := ⟨.nowhere, e.found, e.fault⟩

def Rejection.bare : Rejection → Rejection
  | .lex e => .lex e.bare
  | .parse e => .parse e.bare

def Stop.bare : Stop → Stop
  | .eof _ => .eof .nowhere
  | .fault e => .fault e.bare

/-- The scan with every token, and its stop, at the same place. -/
def Scan.bare (s : Scan) : Scan := ⟨s.tokens.map Token.bare, s.stop.bare⟩

def Reader.bare (r : Reader) : Reader := ⟨r.stop.bare, r.limit⟩

namespace Parsed

/-- What was read, its places taken off by `f`, and the tokens after it without theirs. -/
def bare {α : Type} (f : α → α) : Parsed α → Parsed α
  | .error e => .error e.bare
  | .ok (a, ts) => .ok (f a, ts.map Token.bare)

theorem bare_map {α β : Type} {f : α → α} {g g' : α → β} {f' : β → β}
    (h : ∀ a, g' (f a) = f' (g a)) (x : Parsed α) : (x.bare f).map g' = (x.map g).bare f' := by
  rcases x with e | ⟨a, ts⟩
  · rfl
  · simp only [bare, map_ok, h]

end Parsed

/-! ## Chains of operands -/

section

variable {op? : Lexeme → Option BinaryOp} {operand operand' : List Token → Parsed Expr}
  (h : ∀ ts, operand' (ts.map Token.bare) = (operand ts).bare Expr.bare)

include h

theorem chain_bare (n : Nat) : ∀ (left : Expr) (ts : List Token),
    chain op? operand' n left.bare (ts.map Token.bare) =
      (chain op? operand n left ts).bare Expr.bare := by
  induction n with
  | zero => exact fun _ _ => rfl
  | succ n ih =>
    intro left ts
    cases ts with
    | nil => rfl
    | cons t ts =>
      simp only [List.map_cons, chain, show t.bare.lexeme = t.lexeme from rfl]
      cases op? t.lexeme with
      | none => rfl
      | some op =>
        simp only [h]
        rcases operand ts with e | ⟨right, rest⟩
        · rfl
        · exact ih (.binary op left right t.pos) rest

theorem level_bare (ts : List Token) :
    level op? operand' (ts.map Token.bare) = (level op? operand ts).bare Expr.bare := by
  simp only [level, h]
  rcases operand ts with e | ⟨left, rest⟩
  · rfl
  · simp only [Parsed.bare, List.length_map]
    exact chain_bare h rest.length left rest

theorem expressionOf_bare (ts : List Token) :
    expressionOf operand' (ts.map Token.bare) = (expressionOf operand ts).bare Expr.bare :=
  level_bare (fun ts => level_bare h ts) ts

end

namespace Reader

variable (r : Reader)

theorem unexpected_bare (kinds : List TokenKind) (ts : List Token) :
    r.bare.unexpected kinds (ts.map Token.bare) = (r.unexpected kinds ts).bare := by
  obtain ⟨stop, limit⟩ := r
  cases ts with
  | cons t ts => rfl
  | nil => cases stop <;> rfl

theorem finish_bare {α : Type} (f : α → α) (a : α) (ts : List Token) :
    r.bare.finish (f a) (ts.map Token.bare) =
      ((r.finish a ts).map f).mapError Rejection.bare := by
  obtain ⟨stop, limit⟩ := r
  cases ts with
  | cons t ts => rfl
  | nil => cases stop <;> rfl

/-! ## Expressions -/

theorem closeGroup_bare (x : Parsed Expr) :
    r.bare.closeGroup (x.bare Expr.bare) = (r.closeGroup x).bare Expr.bare := by
  rcases x with e | ⟨e, _ | ⟨⟨l, p⟩, rest⟩⟩
  · rfl
  · exact congrArg Except.error (r.unexpected_bare [.rparen] [])
  · cases l <;> rfl

theorem factor_bare (room : Nat) : ∀ ts : List Token,
    r.bare.factor room (ts.map Token.bare) = (r.factor room ts).bare Expr.bare := by
  -- the room is taken apart by the head, so that one split serves a full reader and one with room
  induction room using Nat.strongRecOn with
  | ind room ih =>
    intro ts
    cases factorHead room ts with
    | none =>
      rw [List.map_nil, factor_nil, factor_nil]
      exact congrArg Except.error (r.unexpected_bare _ [])
    | integer => rw [factor_integer]; exact factor_integer
    | name => rw [factor_name]; exact factor_name
    | @group room p rest =>
      refine factor_group.trans ?_
      rw [factor_group, expression, expression,
        expressionOf_bare (ih room (Nat.lt_succ_self room)), closeGroup_bare]
    | @sign room s p rest =>
      refine factor_sign.trans ?_
      rw [factor_sign, ih room (Nat.lt_succ_self room)]
      exact Parsed.bare_map (fun _ => by rfl) _
    | full h => rw [factor_full h]; exact factor_full h
    | other h => rw [factor_other h]; exact factor_other h

theorem expression_bare (room : Nat) (ts : List Token) :
    r.bare.expression room (ts.map Token.bare) = (r.expression room ts).bare Expr.bare :=
  expressionOf_bare (r.factor_bare room) ts

/-! ## Statements -/

theorem assignment_bare (room : Nat) (x : String) (p : Position) (ts : List Token) :
    r.bare.assignment room x .nowhere (ts.map Token.bare) =
      (r.assignment room x p ts).bare Stmt.bare := by
  rcases ts with _ | ⟨⟨l, q⟩, rest⟩
  · exact congrArg Except.error (r.unexpected_bare [.assign] [])
  · cases l
    case assign =>
      refine assignment_assign.trans ?_
      rw [assignment_assign, expression_bare]
      exact Parsed.bare_map (fun _ => by rfl) _
    all_goals rfl

section

variable {r} {read read' : List Token → Parsed Stmt}
  (h : ∀ ts, read' (ts.map Token.bare) = (read ts).bare Stmt.bare)

include h

theorem statements_bare (fuel : Nat) : ∀ ts : List Token,
    r.bare.statements read' fuel (ts.map Token.bare) =
      (r.statements read fuel ts).bare Stmts.bare := by
  induction fuel with
  | zero => exact fun ts => congrArg Except.error (r.unexpected_bare _ ts)
  | succ fuel ih =>
    intro ts
    have hread := h ts
    generalize hx : read ts = x at hread
    cases statementEnd x with
    | failed =>
      rw [statements_failed hx]
      exact statements_failed hread
    | @semi s q rest =>
      refine (statements_semi hread).trans ?_
      rw [statements_semi hx, ih]
      exact Parsed.bare_map (fun _ => by rfl) _
    | last =>
      rw [statements_last hx]
      exact statements_last hread
    | @other s rest hother =>
      have hbare : ∀ t ∈ (rest.map Token.bare).head?, t.lexeme ≠ .semi ∧ t.lexeme ≠ .endWord := by
        intro t ht
        rw [List.head?_map] at ht
        obtain ⟨u, hu, rfl⟩ := Option.map_eq_some_iff.1 ht
        exact hother u hu
      rw [statements_other hx hother, statements_other hread hbare]
      exact congrArg Except.error (r.unexpected_bare _ rest)

theorem body_bare (ts : List Token) :
    r.bare.body read' (ts.map Token.bare) = (r.body read ts).bare Stmts.bare := by
  rw [body, List.length_map]
  exact statements_bare h _ ts

end

theorem statement_bare (room : Nat) : ∀ ts : List Token,
    r.bare.statement room (ts.map Token.bare) = (r.statement room ts).bare Stmt.bare := by
  induction room using Nat.strongRecOn with
  | ind room ih =>
    intro ts
    cases statementHead room ts with
    | none =>
      rw [List.map_nil, statement_nil, statement_nil]
      obtain ⟨stop, limit⟩ := r
      cases stop <;> rfl
    | @block room p rest =>
      refine statement_block.trans ?_
      rw [statement_block, body_bare (ih room (Nat.lt_succ_self room))]
      exact Parsed.bare_map (fun _ => by rfl) _
    | full => rw [statement_full]; exact statement_full
    | name => rw [statement_name, ← assignment_bare]; exact statement_name
    | other hbegin hident =>
      rw [statement_other hbegin hident]
      exact statement_other hbegin hident

/-! ## Whole texts -/

theorem loneExpression_bare (ts : List Token) :
    r.bare.loneExpression (ts.map Token.bare) =
      ((r.loneExpression ts).map Expr.bare).mapError Rejection.bare := by
  simp only [loneExpression, show r.bare.limit = r.limit from rfl, expression_bare]
  rcases r.expression r.limit ts with e | ⟨e, rest⟩
  · rfl
  · exact r.finish_bare Expr.bare e rest

theorem program_bare (ts : List Token) :
    r.bare.program (ts.map Token.bare) =
      ((r.program ts).map Program.bare).mapError Rejection.bare := by
  rcases ts with _ | ⟨⟨l, p⟩, rest⟩
  · exact congrArg Except.error (r.unexpected_bare [.beginWord] [])
  · cases l
    case beginWord =>
      simp only [List.map_cons, program, Token.bare, show r.bare.limit = r.limit from rfl]
      rw [body_bare (r.statement_bare (r.limit - 1))]
      rcases r.body (r.statement (r.limit - 1)) rest with e | ⟨b, _ | ⟨⟨l, q⟩, rest⟩⟩
      · rfl
      · exact congrArg Except.error (r.unexpected_bare [.dot] [])
      · cases l
        case dot => exact r.finish_bare Program.bare ⟨p, b⟩ rest
        all_goals rfl
    all_goals rfl

end Reader

section

variable {t u : Text} (limit : Nat) (h : (Scan.ofText t).bare = (Scan.ofText u).bare)

include h

theorem Program.parse_congr :
    ((Program.parse limit t).map Program.bare).mapError Rejection.bare =
      ((Program.parse limit u).map Program.bare).mapError Rejection.bare := by
  obtain ⟨htokens, hstop⟩ := Scan.mk.inj h
  simp only [Program.parse, ← Reader.program_bare, Reader.bare, htokens, hstop]

theorem Expr.parse_congr :
    ((Expr.parse limit t).map Expr.bare).mapError Rejection.bare =
      ((Expr.parse limit u).map Expr.bare).mapError Rejection.bare := by
  obtain ⟨htokens, hstop⟩ := Scan.mk.inj h
  simp only [Expr.parse, ← Reader.loneExpression_bare, Reader.bare, htokens, hstop]

end

/-- Answers that are the same up to places are of one sort. -/
theorem Rejection.cases_of_bare_eq {α : Type} {f : α → α} {x y : Except Rejection α}
    (h : (x.map f).mapError Rejection.bare = (y.map f).mapError Rejection.bare) :
    (∃ a b, x = .ok a ∧ y = .ok b ∧ f a = f b) ∨
      ∃ e e', x = .error e ∧ y = .error e' ∧ e.bare = e'.bare := by
  cases x with
  | ok a =>
    cases y with
    | ok b => exact .inl ⟨a, b, rfl, rfl, Except.ok.inj h⟩
    | error e' => cases h
  | error e =>
    cases y with
    | ok b => cases h
    | error e' => exact .inr ⟨e, e', rfl, rfl, Except.error.inj h⟩

end BlockCalc
