import BlockCalc.Engine
import BlockCalc.Proofs.Grammar

/-!
# BlockCalc.Proofs.Reading

The readers token by token, and the sound half of their correctness: whatever a reader returns is
derived from the tokens that it took, within the room that it had.
-/

namespace BlockCalc

namespace Grammar

/-- The operators of a level, as the readers tell them. -/
def Level.op? : Level → Lexeme → Option BinaryOp
  | .sum => Lexeme.sum?
  | .product => Lexeme.product?

theorem Level.op?_eq_some {k : Level} {l : Lexeme} {op : BinaryOp} :
    k.op? l = some op ↔ op.level = k ∧ op.lexeme = l := by
  cases k <;> cases op <;> cases l <;>
    simp [Level.op?, Lexeme.sum?, Lexeme.product?, BinaryOp.level, BinaryOp.lexeme]

end Grammar

namespace Parsed

/-- Makes something of what was read. -/
def map {α β : Type} (f : α → β) : Parsed α → Parsed β
  | .error e => .error e
  | .ok (a, ts) => .ok (f a, ts)

@[simp] theorem map_ok {α β : Type} (f : α → β) (a : α) (ts : List Token) :
    map f (.ok (a, ts)) = .ok (f a, ts) := rfl

theorem map_eq_ok {α β : Type} {f : α → β} {x : Parsed α} {b : β} {rest : List Token}
    (h : x.map f = .ok (b, rest)) : ∃ a, x = .ok (a, rest) ∧ f a = b := by
  match x with
  | .error e => cases h
  | .ok (a, ts) => cases h; exact ⟨a, rfl, rfl⟩

theorem map_eq_error {α β : Type} {f : α → β} {x : Parsed α} {e : Rejection}
    (h : x.map f = .error e) : x = .error e := by
  match x with
  | .error e => cases h; rfl
  | .ok (a, ts) => cases h

end Parsed

namespace Reader

open Grammar

/-- How the operands of a level are read. -/
def operand (r : Reader) (room : Nat) : Level → List Token → Parsed Expr
  | .sum => level Lexeme.product? (r.factor room)
  | .product => r.factor room

/-! ## The readers, token by token -/

/-- What a factor can find in front of it, with the room that it has. -/
inductive FactorHead : Nat → List Token → Prop where
  | none {room : Nat} : FactorHead room []
  | integer {room : Nat} {digits : String} {v : Int64} {p : Position} {rest : List Token} :
      FactorHead room (⟨.integer digits v, p⟩ :: rest)
  | name {room : Nat} {x : String} {p : Position} {rest : List Token} :
      FactorHead room (⟨.ident x, p⟩ :: rest)
  | group {room : Nat} {p : Position} {rest : List Token} :
      FactorHead (room + 1) (⟨.lparen, p⟩ :: rest)
  | sign {room : Nat} {s : Sign} {p : Position} {rest : List Token} :
      FactorHead (room + 1) (⟨s.lexeme, p⟩ :: rest)
  | full {t : Token} {rest : List Token} :
      t.lexeme = .lparen ∨ (∃ s : Sign, t.lexeme = s.lexeme) → FactorHead 0 (t :: rest)
  | other {room : Nat} {t : Token} {rest : List Token} :
      t.lexeme.kind ∉ TokenKind.factorStart → FactorHead room (t :: rest)

theorem factorHead : ∀ (room : Nat) (ts : List Token), FactorHead room ts
  | _, [] => .none
  | room, ⟨l, p⟩ :: rest => by
    cases l
    case integer digits v => exact .integer
    case ident x => exact .name
    case lparen =>
      cases room with
      | zero => exact .full (.inl rfl)
      | succ room => exact .group
    case plus =>
      cases room with
      | zero => exact .full (.inr ⟨.plus, rfl⟩)
      | succ room => exact .sign (s := .plus)
    case minus =>
      cases room with
      | zero => exact .full (.inr ⟨.minus, rfl⟩)
      | succ room => exact .sign (s := .minus)
    all_goals exact .other (by simp [Lexeme.kind, TokenKind.factorStart])

/-- What a statement can find in front of it, with the room that it has. -/
inductive StatementHead : Nat → List Token → Prop where
  | none {room : Nat} : StatementHead room []
  | block {room : Nat} {p : Position} {rest : List Token} :
      StatementHead (room + 1) (⟨.beginWord, p⟩ :: rest)
  | full {p : Position} {rest : List Token} : StatementHead 0 (⟨.beginWord, p⟩ :: rest)
  | name {room : Nat} {x : String} {p : Position} {rest : List Token} :
      StatementHead room (⟨.ident x, p⟩ :: rest)
  | other {room : Nat} {t : Token} {rest : List Token} :
      t.lexeme.kind ≠ .beginWord → t.lexeme.kind ≠ .ident → StatementHead room (t :: rest)

theorem statementHead : ∀ (room : Nat) (ts : List Token), StatementHead room ts
  | _, [] => .none
  | room, ⟨l, p⟩ :: rest => by
    cases l
    case beginWord =>
      cases room with
      | zero => exact .full
      | succ room => exact .block
    case ident x => exact .name
    all_goals exact .other (by simp [Lexeme.kind]) (by simp [Lexeme.kind])

variable {r : Reader}

theorem factor_nil {room : Nat} :
    r.factor room [] = .error (r.unexpected TokenKind.factorStart []) := by
  cases room <;> rfl

theorem factor_integer {room : Nat} {digits : String} {v : Int64} {p : Position}
    {rest : List Token} :
    r.factor room (⟨.integer digits v, p⟩ :: rest) = .ok (.int v p, rest) := by
  cases room <;> rfl

theorem factor_name {room : Nat} {x : String} {p : Position} {rest : List Token} :
    r.factor room (⟨.ident x, p⟩ :: rest) = .ok (.var x p, rest) := by
  cases room <;> rfl

theorem factor_group {room : Nat} {p : Position} {rest : List Token} :
    r.factor (room + 1) (⟨.lparen, p⟩ :: rest) = r.closeGroup (r.expression room rest) :=
  rfl

theorem factor_sign {room : Nat} {s : Sign} {p : Position} {rest : List Token} :
    r.factor (room + 1) (⟨s.lexeme, p⟩ :: rest) = (r.factor room rest).map (.unary s · p) := by
  cases s <;> (rw [factor]; cases r.factor room rest <;> rfl)

theorem factor_full {t : Token} {rest : List Token}
    (h : t.lexeme = .lparen ∨ ∃ s : Sign, t.lexeme = s.lexeme) :
    r.factor 0 (t :: rest) = .error (r.tooDeep t) := by
  obtain ⟨l, p⟩ := t
  rcases h with rfl | ⟨s, rfl⟩
  · rfl
  · cases s <;> rfl

theorem factor_other {room : Nat} {t : Token} {rest : List Token}
    (h : t.lexeme.kind ∉ TokenKind.factorStart) :
    r.factor room (t :: rest) = .error (r.unexpected TokenKind.factorStart (t :: rest)) := by
  obtain ⟨l, p⟩ := t
  unfold factor
  cases l <;> first | rfl | simp [Lexeme.kind, TokenKind.factorStart] at h

theorem statement_nil {room : Nat} : r.statement room [] = .ok (.empty r.stop.pos, []) := by
  cases room <;> rfl

theorem statement_block {room : Nat} {p : Position} {rest : List Token} :
    r.statement (room + 1) (⟨.beginWord, p⟩ :: rest) =
      (r.body (r.statement room) rest).map (.block p) := by
  rw [statement]; cases r.body (r.statement room) rest <;> rfl

theorem statement_full {p : Position} {rest : List Token} :
    r.statement 0 (⟨.beginWord, p⟩ :: rest) = .error (r.tooDeep ⟨.beginWord, p⟩) :=
  rfl

theorem statement_name {room : Nat} {x : String} {p : Position} {rest : List Token} :
    r.statement room (⟨.ident x, p⟩ :: rest) = r.assignment room x p rest := by
  cases room <;> rfl

theorem statement_other {room : Nat} {t : Token} {rest : List Token}
    (hb : t.lexeme.kind ≠ .beginWord) (hi : t.lexeme.kind ≠ .ident) :
    r.statement room (t :: rest) = .ok (.empty t.pos, t :: rest) := by
  obtain ⟨l, p⟩ := t
  unfold statement
  cases l <;> first | rfl | simp [Lexeme.kind] at hb hi

theorem assignment_assign {room : Nat} {x : String} {p q : Position} {rest : List Token} :
    r.assignment room x p (⟨.assign, q⟩ :: rest) =
      (r.expression room rest).map (.assign x p · q) := by
  rw [assignment]; cases r.expression room rest <;> rfl

theorem assignment_cases (r : Reader) (room : Nat) (x : String) (p : Position) (ts : List Token) :
    (∃ q rest, ts = ⟨.assign, q⟩ :: rest) ∨
      r.assignment room x p ts = .error (r.unexpected [.assign] ts) := by
  unfold assignment
  split
  · exact .inl ⟨_, _, rfl⟩
  · exact .inr rfl

theorem assignment_other {room : Nat} {x : String} {p : Position} {t : Token} {rest : List Token}
    (h : t.lexeme.kind ≠ .assign) :
    r.assignment room x p (t :: rest) = .error (r.unexpected [.assign] (t :: rest)) := by
  obtain ⟨l, q⟩ := t
  cases l <;> first | rfl | exact absurd rfl h

theorem closeGroup_other {e : Expr} {t : Token} {rest : List Token}
    (h : t.lexeme.kind ≠ .rparen) :
    r.closeGroup (.ok (e, t :: rest)) = .error (r.unexpected [.rparen] (t :: rest)) := by
  obtain ⟨l, q⟩ := t
  cases l <;> first | rfl | exact absurd rfl h

/-- How a statement of a block can come out. -/
inductive StatementEnd : Parsed Stmt → Prop where
  | failed {e : Rejection} : StatementEnd (.error e)
  | semi {s : Stmt} {q : Position} {rest : List Token} :
      StatementEnd (.ok (s, ⟨.semi, q⟩ :: rest))
  | last {s : Stmt} {q : Position} {rest : List Token} :
      StatementEnd (.ok (s, ⟨.endWord, q⟩ :: rest))
  | other {s : Stmt} {rest : List Token} :
      (∀ t ∈ rest.head?, t.lexeme ≠ .semi ∧ t.lexeme ≠ .endWord) → StatementEnd (.ok (s, rest))

theorem statementEnd : ∀ x : Parsed Stmt, StatementEnd x
  | .error _ => .failed
  | .ok (_, []) => .other nofun
  | .ok (_, ⟨l, q⟩ :: rest) => by
    cases l
    case semi => exact .semi
    case endWord => exact .last
    all_goals exact .other (by simp)

section

variable {read : List Token → Parsed Stmt} {fuel : Nat} {ts rest : List Token} {s : Stmt}
  {q : Position}

theorem statements_failed {e : Rejection} (h : read ts = .error e) :
    r.statements read (fuel + 1) ts = .error e := by
  simp only [statements, h]

theorem statements_semi (h : read ts = .ok (s, ⟨.semi, q⟩ :: rest)) :
    r.statements read (fuel + 1) ts = (r.statements read fuel rest).map (.cons s) := by
  simp only [statements, h]
  cases r.statements read fuel rest <;> rfl

theorem statements_last (h : read ts = .ok (s, ⟨.endWord, q⟩ :: rest)) :
    r.statements read (fuel + 1) ts = .ok (.one s, rest) := by
  simp only [statements, h]

theorem statements_other (h : read ts = .ok (s, rest))
    (hother : ∀ t ∈ rest.head?, t.lexeme ≠ .semi ∧ t.lexeme ≠ .endWord) :
    r.statements read (fuel + 1) ts = .error (r.unexpected [.semi, .endWord] rest) := by
  simp only [statements, h]
  split
  · rename_i heq; cases heq
  · rename_i heq; cases heq; exact absurd rfl (hother _ rfl).1
  · rename_i heq; cases heq; exact absurd rfl (hother _ rfl).2
  · rename_i heq; cases heq; rfl

end

theorem program_cases (r : Reader) (ts : List Token) :
    (∃ p rest, ts = ⟨.beginWord, p⟩ :: rest) ∨
      r.program ts = .error (r.unexpected [.beginWord] ts) := by
  unfold program
  split
  · exact .inl ⟨_, _, rfl⟩
  · exact .inr rfl

theorem program_ok {ts : List Token} {p : Program} (h : r.program ts = .ok p) :
    ∃ pos us b q rest, ts = ⟨.beginWord, pos⟩ :: us ∧
      r.body (r.statement (r.limit - 1)) us = .ok (b, ⟨.dot, q⟩ :: rest) ∧
      r.finish ⟨pos, b⟩ rest = .ok p := by
  unfold program at h
  split at h
  · split at h
    · cases h
    · rename_i hb; exact ⟨_, _, _, _, _, rfl, hb, h⟩
    · cases h
  · cases h

theorem program_error {ts : List Token} {pos : Position} {e : Rejection}
    (h : r.program (⟨.beginWord, pos⟩ :: ts) = .error e) :
    r.body (r.statement (r.limit - 1)) ts = .error e ∨
      ∃ b rest, r.body (r.statement (r.limit - 1)) ts = .ok (b, rest) ∧
        ((∃ q rest', rest = ⟨.dot, q⟩ :: rest' ∧ r.finish (⟨pos, b⟩ : Program) rest' = .error e) ∨
          (∀ t ∈ rest.head?, t.lexeme ≠ .dot) ∧ e = r.unexpected [.dot] rest) := by
  simp only [program] at h
  split at h
  · rename_i hb; cases h; exact .inl hb
  · rename_i hb; exact .inr ⟨_, _, hb, .inl ⟨_, _, rfl, h⟩⟩
  · rename_i b rest hne hb
    cases h
    refine .inr ⟨b, rest, hb, .inr ⟨?_, rfl⟩⟩
    rintro ⟨l, q⟩ ht rfl
    obtain ⟨ts, rfl⟩ := List.head?_eq_some_iff.1 ht
    exact hne _ _ rfl

/-! ## What is read is derived -/

/-- Whatever `read` returns is derived from the tokens it took, within `room`. -/
def Sound (room : Nat) (phrase : Expr → Phrase) (read : List Token → Parsed Expr) : Prop :=
  ∀ {ts : List Token} {e : Expr} {rest : List Token}, read ts = .ok (e, rest) →
    ∃ us n, ts = us ++ rest ∧ n ≤ room ∧ Derives (phrase e) us n

theorem chain_sound {room : Nat} {k : Level} {read : List Token → Parsed Expr}
    (hread : Sound room k.operand read) :
    ∀ {fuel : Nat} {l e : Expr} {ts rest : List Token},
      chain k.op? read fuel l ts = .ok (e, rest) →
      ∃ us n, ts = us ++ rest ∧ n ≤ room ∧ Derives (.tail k l e) us n := by
  intro fuel
  induction fuel with
  | zero =>
    intro l e ts rest h
    simp only [chain] at h; cases h
    exact ⟨[], 0, rfl, Nat.zero_le _, .done⟩
  | succ fuel ih =>
    intro l e ts rest h
    cases ts with
    | nil =>
      simp only [chain] at h; cases h
      exact ⟨[], 0, rfl, Nat.zero_le _, .done⟩
    | cons t ts =>
      simp only [chain] at h
      split at h
      · cases h
        exact ⟨[], 0, rfl, Nat.zero_le _, .done⟩
      · rename_i op hop
        obtain ⟨hk, hl⟩ := Level.op?_eq_some.1 hop
        split at h
        · cases h
        · rename_i x after hx
          obtain ⟨us, m, rfl, hm, hus⟩ := hread hx
          obtain ⟨vs, n, rfl, hn, hvs⟩ := ih h
          obtain ⟨lexeme, pos⟩ := t
          simp only at hl; subst hl
          exact ⟨_, _, by simp, Nat.max_le.2 ⟨hm, hn⟩, .more hk hus hvs⟩

theorem level_sound {room : Nat} {k : Level} {read : List Token → Parsed Expr}
    (hread : Sound room k.operand read) : Sound room (.chain k) (level k.op? read) := by
  intro ts e rest h
  simp only [level] at h
  split at h
  · cases h
  · rename_i l after hl
    obtain ⟨us, m, rfl, hm, hus⟩ := hread hl
    obtain ⟨vs, n, rfl, hn, hvs⟩ := chain_sound hread h
    exact ⟨us ++ vs, max m n, by simp, Nat.max_le.2 ⟨hm, hn⟩, .chain hus hvs⟩

theorem operand_sound {r : Reader} {room : Nat} (hfactor : Sound room .factor (r.factor room)) :
    ∀ k : Level, Sound room k.operand (r.operand room k)
  | .sum => level_sound (k := .product) hfactor
  | .product => hfactor

theorem expression_sound_of_factor {r : Reader} {room : Nat}
    (hfactor : Sound room .factor (r.factor room)) :
    Sound room .expression (r.expression room) :=
  level_sound (k := .sum) (operand_sound hfactor .sum)

/-- A group is closed by the parenthesis after its expression. -/
theorem closeGroup_ok {e : Expr} {x : Parsed Expr} {rest : List Token}
    (h : r.closeGroup x = .ok (e, rest)) : ∃ q, x = .ok (e, ⟨.rparen, q⟩ :: rest) := by
  unfold closeGroup at h
  split at h
  · cases h
  · split at h
    · cases h; exact ⟨_, rfl⟩
    · cases h

theorem factor_sound (r : Reader) : ∀ room : Nat, Sound room .factor (r.factor room) := by
  intro room
  induction room using Nat.strongRecOn with
  | ind room ih =>
    intro ts e rest h
    cases factorHead room ts with
    | none => rw [factor_nil] at h; cases h
    | integer => rw [factor_integer] at h; cases h; exact ⟨_, 0, rfl, Nat.zero_le _, .integer⟩
    | name => rw [factor_name] at h; cases h; exact ⟨_, 0, rfl, Nat.zero_le _, .name⟩
    | @group room p ts =>
      rw [factor_group] at h
      obtain ⟨q, hq⟩ := closeGroup_ok h
      obtain ⟨us, n, rfl, hn, hus⟩ := expression_sound_of_factor (ih room (by omega)) hq
      exact ⟨⟨.lparen, p⟩ :: (us ++ [⟨.rparen, q⟩]), n + 1, by simp, Nat.succ_le_succ hn,
        .group hus⟩
    | @sign room s p ts =>
      rw [factor_sign] at h
      obtain ⟨x, hx, rfl⟩ := Parsed.map_eq_ok h
      obtain ⟨us, n, rfl, hn, hus⟩ := ih room (by omega) hx
      exact ⟨_, n + 1, by simp, Nat.succ_le_succ hn, .sign hus⟩
    | full ht => rw [factor_full ht] at h; cases h
    | other hk => rw [factor_other hk] at h; cases h

theorem expression_sound (r : Reader) (room : Nat) :
    Sound room .expression (r.expression room) :=
  expression_sound_of_factor (factor_sound r room)

/-- `Sound` for statements, which look at the place of the token after them. -/
def SoundStatement (r : Reader) (room : Nat) (read : List Token → Parsed Stmt) : Prop :=
  ∀ {ts : List Token} {s : Stmt} {rest : List Token}, read ts = .ok (s, rest) →
    ∃ us n, ts = us ++ rest ∧ n ≤ room ∧ Derives (.statement s (r.here rest)) us n

theorem statements_sound {room : Nat} {read : List Token → Parsed Stmt}
    (hread : SoundStatement r room read) :
    ∀ {fuel : Nat} {b : Stmts} {ts rest : List Token},
      r.statements read fuel ts = .ok (b, rest) →
      ∃ us q n, ts = us ++ ⟨.endWord, q⟩ :: rest ∧ n ≤ room ∧ Derives (.statements b q) us n := by
  intro fuel
  induction fuel with
  | zero => intro b ts rest h; simp [statements] at h
  | succ fuel ih =>
    intro b ts rest h
    generalize hs : read ts = x
    cases statementEnd x with
    | failed => rw [statements_failed hs] at h; cases h
    | @semi s q after =>
      rw [statements_semi hs] at h
      obtain ⟨more, hmore, rfl⟩ := Parsed.map_eq_ok h
      obtain ⟨us, m, rfl, hm, hus⟩ := hread hs
      obtain ⟨vs, q', n, rfl, hn, hvs⟩ := ih hmore
      exact ⟨us ++ ⟨.semi, q⟩ :: vs, q', max m n, by simp, Nat.max_le.2 ⟨hm, hn⟩, .cons hus hvs⟩
    | @last s q after =>
      rw [statements_last hs] at h
      cases h
      obtain ⟨us, n, rfl, hn, hus⟩ := hread hs
      exact ⟨us, q, n, rfl, hn, .one hus⟩
    | other hother => rw [statements_other hs hother] at h; cases h

theorem assignment_sound {room : Nat} {x : String} {p next : Position} {s : Stmt}
    {ts rest : List Token} (h : r.assignment room x p ts = .ok (s, rest)) :
    ∃ us n, ⟨.ident x, p⟩ :: ts = us ++ rest ∧ n ≤ room ∧ Derives (.statement s next) us n := by
  obtain ⟨q, ts, rfl⟩ | hx := assignment_cases r room x p ts
  · rw [assignment_assign] at h
    obtain ⟨e, he, rfl⟩ := Parsed.map_eq_ok h
    obtain ⟨us, n, rfl, hn, hus⟩ := expression_sound r room he
    exact ⟨⟨.ident x, p⟩ :: ⟨.assign, q⟩ :: us, n, by simp, hn, .assign hus⟩
  · rw [hx] at h; cases h

theorem statement_sound (r : Reader) :
    ∀ room : Nat, SoundStatement r room (r.statement room) := by
  intro room
  induction room using Nat.strongRecOn with
  | ind room ih =>
    intro ts s rest h
    cases statementHead room ts with
    | none => rw [statement_nil] at h; cases h; exact ⟨[], 0, rfl, Nat.zero_le _, .empty⟩
    | @block room p ts =>
      rw [statement_block] at h
      obtain ⟨b, hb, rfl⟩ := Parsed.map_eq_ok h
      obtain ⟨us, q, n, rfl, hn, hus⟩ := statements_sound (ih room (by omega)) hb
      exact ⟨⟨.beginWord, p⟩ :: (us ++ [⟨.endWord, q⟩]), n + 1, by simp, Nat.succ_le_succ hn,
        .block (.compound hus)⟩
    | full => rw [statement_full] at h; cases h
    | name => rw [statement_name] at h; exact assignment_sound h
    | other hb hi =>
      rw [statement_other hb hi] at h; cases h
      exact ⟨[], 0, rfl, Nat.zero_le _, .empty⟩

theorem finish_ok {α : Type} {a b : α} {ts : List Token} (h : r.finish a ts = .ok b) :
    a = b ∧ ts = [] ∧ ∃ p, r.stop = .eof p := by
  unfold finish at h
  split at h
  · cases h
  · split at h
    · rename_i p hp; cases h; exact ⟨rfl, rfl, p, hp⟩
    · cases h

theorem program_sound {p : Program} {ts : List Token} (h : r.program ts = .ok p) :
    (∃ q, r.stop = .eof q) ∧ ∃ n ≤ r.limit - 1 + 1, Derives (.program p) ts n := by
  obtain ⟨pos, ts, b, q, after, rfl, hb, hfinish⟩ := program_ok h
  obtain ⟨us, q', n, rfl, hn, hus⟩ := statements_sound (statement_sound r _) hb
  obtain ⟨rfl, rfl, hstop⟩ := finish_ok hfinish
  have := Derives.program (q := q) (.compound (p := pos) hus)
  exact ⟨hstop, n + 1, Nat.succ_le_succ hn, by simpa using this⟩

theorem loneExpression_sound {e : Expr} {ts : List Token} (h : r.loneExpression ts = .ok e) :
    (∃ q, r.stop = .eof q) ∧ ∃ n ≤ r.limit, Derives (.expression e) ts n := by
  unfold loneExpression at h
  split at h
  · cases h
  · rename_i x rest hx
    obtain ⟨rfl, rfl, hstop⟩ := finish_ok h
    obtain ⟨us, n, rfl, hn, hus⟩ := expression_sound r _ hx
    exact ⟨hstop, n, hn, by simpa using hus⟩

end Reader
end BlockCalc
