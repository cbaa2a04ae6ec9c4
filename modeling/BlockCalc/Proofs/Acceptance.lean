import BlockCalc.Engine
import BlockCalc.Proofs.Reading

/-!
# BlockCalc.Proofs.Acceptance

Whatever the grammar derives is read, provided that the token after it cannot belong to it and
that there is room for its nesting.
-/

namespace BlockCalc

namespace Grammar

/-- The next token of `ts` is no operator of level `k`. -/
def NoOperator (k : Level) (ts : List Token) : Prop := ∀ t ∈ ts.head?, k.op? t.lexeme = none

/-- The tokens that cannot go on an operand of level `k`. -/
def Level.OperandEnds : Level → List Token → Prop
  | .sum, ts => NoOperator .product ts
  | .product, _ => True

/-- The tokens that cannot go on a chain of level `k`. -/
def Level.Ends (k : Level) (ts : List Token) : Prop := NoOperator k ts ∧ k.OperandEnds ts

theorem noOperator_nil (k : Level) : NoOperator k [] := by
  intro t ht; cases ht

theorem Level.ends_nil (k : Level) : k.Ends [] := by
  cases k
  · exact ⟨noOperator_nil _, noOperator_nil _⟩
  · exact ⟨noOperator_nil _, trivial⟩

/-- A token that is no operator at all ends a chain of either level. -/
theorem Level.ends_cons {t : Token} {ts : List Token} (k : Level)
    (h : ∀ op : BinaryOp, t.lexeme ≠ op.lexeme) : k.Ends (t :: ts) := by
  have hno : ∀ k : Level, NoOperator k (t :: ts) := by
    intro k u hu
    cases hu
    cases hop : k.op? t.lexeme with
    | none => rfl
    | some op => exact absurd (Level.op?_eq_some.1 hop).2.symm (h op)
  cases k
  · exact ⟨hno _, hno _⟩
  · exact ⟨hno _, trivial⟩

/-- An operator of level `k` ends the operands of that level. -/
theorem Level.operandEnds_cons {op : BinaryOp} {p : Position} {ts : List Token} :
    op.level.OperandEnds (⟨op.lexeme, p⟩ :: ts) := by
  cases op
  case add => intro t ht; cases ht; rfl
  case sub => intro t ht; cases ht; rfl
  case mul => trivial
  case div => trivial

/-- What follows an operand is the rest of its chain, and then what follows the chain. -/
theorem Derives.operandEnds_tail {k : Level} {l e : Expr} {us rest : List Token} {n : Nat}
    (h : Derives (.tail k l e) us n) (hrest : k.Ends rest) : k.OperandEnds (us ++ rest) := by
  cases h with
  | done => exact hrest.2
  | more hk _ _ => subst hk; exact Level.operandEnds_cons

end Grammar

namespace Reader

open Grammar

/-- The token after a statement: the semicolon or the `END` that it stands before. -/
def Closes (next : Position) (ts : List Token) : Prop :=
  ∃ l rest, ts = ⟨l, next⟩ :: rest ∧ (l = .semi ∨ l = .endWord)

theorem Closes.ends {next : Position} {ts : List Token} (h : Closes next ts) (k : Level) :
    k.Ends ts := by
  obtain ⟨l, rest, rfl, hl⟩ := h
  refine k.ends_cons fun op => ?_
  rcases hl with rfl | rfl <;> cases op <;> simp [BinaryOp.lexeme]

/-- The reader of a phrase takes the tokens `us`, which nest `n` deep, and leaves the rest. -/
def Accepts (r : Reader) : Phrase → List Token → Nat → Prop
  | .factor e, us, n => ∀ room rest, n ≤ room → r.factor room (us ++ rest) = .ok (e, rest)
  | .chain k e, us, n => ∀ room rest, n ≤ room → k.Ends rest →
      level k.op? (r.operand room k) (us ++ rest) = .ok (e, rest)
  | .tail k l e, us, n => ∀ room rest fuel, n ≤ room → k.Ends rest →
      (us ++ rest).length ≤ fuel →
      chain k.op? (r.operand room k) fuel l (us ++ rest) = .ok (e, rest)
  | .statement s next, us, n => ∀ room rest, n ≤ room → Closes next rest →
      r.statement room (us ++ rest) = .ok (s, rest)
  | .statements b next, us, n => ∀ room rest fuel, n ≤ room → us.length < fuel →
      r.statements (r.statement room) fuel (us ++ ⟨.endWord, next⟩ :: rest) = .ok (b, rest)
  | .compound p b, us, n => 0 < n ∧ ∃ vs, us = ⟨.beginWord, p⟩ :: vs ∧
      ∀ room rest, n ≤ room + 1 → r.body (r.statement room) (vs ++ rest) = .ok (b, rest)
  | .program p, us, n => ∀ q, r.stop = .eof q → n ≤ r.limit - 1 + 1 → r.program us = .ok p

theorem Accepts.operand {r : Reader} {k : Level} {e : Expr} {us rest : List Token} {n : Nat}
    (h : r.Accepts (k.operand e) us n) (room : Nat) (hn : n ≤ room) (hrest : k.OperandEnds rest) :
    r.operand room k (us ++ rest) = .ok (e, rest) := by
  cases k with
  | sum => exact h room rest hn ⟨hrest, trivial⟩
  | product => exact h room rest hn

theorem Accepts.expression {r : Reader} {e : Expr} {us rest : List Token} {n : Nat}
    (h : r.Accepts (.expression e) us n) (room : Nat) (hn : n ≤ room)
    (hrest : Level.sum.Ends rest) :
    r.expression room (us ++ rest) = .ok (e, rest) := h room rest hn hrest

theorem accepts_of_derives (r : Reader) {x : Phrase} {us : List Token} {n : Nat}
    (h : Derives x us n) : r.Accepts x us n := by
  induction h with
  | integer => intro room rest _; exact factor_integer
  | name => intro room rest _; exact factor_name
  | @group e ts n p q _ ih =>
    intro room rest hn
    obtain ⟨room, rfl⟩ : ∃ m, room = m + 1 := ⟨room - 1, by omega⟩
    have hends : Level.sum.Ends (⟨.rparen, q⟩ :: rest) :=
      Level.ends_cons _ fun op => by cases op <;> simp [BinaryOp.lexeme]
    have hx := ih.expression room (by omega) hends
    simp [factor_group, hx, closeGroup]
  | @sign s e ts n p _ ih =>
    intro room rest hn
    obtain ⟨room, rfl⟩ : ∃ m, room = m + 1 := ⟨room - 1, by omega⟩
    simp [factor_sign, ih room rest (by omega)]
  | @chain k l e ts us m n _ htail ihl ih =>
    intro room rest hn hends
    have hl := ihl.operand room (by omega) (htail.operandEnds_tail hends)
    rw [List.append_assoc, level, hl]
    exact ih room rest (us ++ rest).length (by omega) hends (Nat.le_refl _)
  | done =>
    intro room rest fuel _ hends hfuel
    cases rest with
    | nil => cases fuel <;> rfl
    | cons t rest =>
      obtain ⟨fuel, rfl⟩ : ∃ m, fuel = m + 1 := ⟨fuel - 1, by simp at hfuel; omega⟩
      simp [chain, hends.1 t rfl]
  | @more k op l x e ts us m n p hk _ htail ihx ih =>
    intro room rest fuel hn hends hfuel
    simp only [List.cons_append, List.append_assoc, List.length_cons, List.length_append] at hfuel
    obtain ⟨fuel, rfl⟩ : ∃ m, fuel = m + 1 := ⟨fuel - 1, by omega⟩
    have hop : k.op? op.lexeme = some op := Level.op?_eq_some.2 ⟨hk, rfl⟩
    have hx := ihx.operand room (by omega) (htail.operandEnds_tail hends)
    have := ih room rest fuel (by omega) hends (by simp only [List.length_append]; omega)
    simp [chain, hop, hx, this]
  | @empty next =>
    intro room rest _ hclose
    obtain ⟨l, rest, rfl, hl⟩ := hclose
    rcases hl with rfl | rfl <;>
      exact statement_other (by simp [Lexeme.kind]) (by simp [Lexeme.kind])
  | @assign x e ts n p q next _ ih =>
    intro room rest hn hclose
    have he := ih.expression room hn (hclose.ends _)
    simp [statement_name, assignment, he]
  | @block b ts n p next _ ih =>
    intro room rest hn _
    obtain ⟨hpos, vs, rfl, hbody⟩ := ih
    obtain ⟨room, rfl⟩ : ∃ m, room = m + 1 := ⟨room - 1, by omega⟩
    simp [statement_block, hbody room rest hn]
  | @one s ts n next _ ih =>
    intro room rest fuel hn hfuel
    obtain ⟨fuel, rfl⟩ : ∃ m, fuel = m + 1 := ⟨fuel - 1, by omega⟩
    have hs := ih room (⟨.endWord, next⟩ :: rest) hn ⟨_, _, rfl, .inr rfl⟩
    simp [statements, hs]
  | @cons s b ts us m n q next _ _ ihs ih =>
    intro room rest fuel hn hfuel
    simp only [List.length_append, List.length_cons] at hfuel
    obtain ⟨fuel, rfl⟩ : ∃ m, fuel = m + 1 := ⟨fuel - 1, by omega⟩
    have hs := ihs room (⟨.semi, q⟩ :: (us ++ ⟨.endWord, next⟩ :: rest)) (by omega)
      ⟨_, _, rfl, .inl rfl⟩
    have := ih room rest fuel (by omega) (by omega)
    simp [statements, hs, this]
  | @compound b ts n p q _ ih =>
    refine ⟨Nat.succ_pos _, _, rfl, fun room rest hn => ?_⟩
    have := ih room rest ((ts ++ [(⟨.endWord, q⟩ : Token)] ++ rest).length + 1) (by omega)
      (by simp only [List.length_append]; omega)
    simpa [body] using this
  | @program b ts n p q _ ih =>
    intro q' hstop hn
    obtain ⟨_, vs, rfl, hbody⟩ := ih
    simp [program, hbody _ _ hn, finish, hstop]

/-! ## Whole texts -/

theorem program_iff {r : Reader} {q : Position} (hstop : r.stop = .eof q) {p : Program}
    {ts : List Token} :
    r.program ts = .ok p ↔ ∃ n ≤ r.limit - 1 + 1, Derives (.program p) ts n := by
  constructor
  · intro h
    exact (program_sound h).2
  · rintro ⟨n, hn, h⟩
    exact accepts_of_derives r h q hstop hn

theorem program_append {r : Reader} {p : Program} {us : List Token} {n : Nat}
    (h : Derives (.program p) us n) (hn : n ≤ r.limit - 1 + 1) (vs : List Token) :
    r.program (us ++ vs) = r.finish p vs := by
  cases h with
  | program h =>
    obtain ⟨_, rest, rfl, hbody⟩ := accepts_of_derives r h
    simp [Reader.program, hbody _ _ hn]

theorem loneExpression_iff {r : Reader} {q : Position} (hstop : r.stop = .eof q) {e : Expr}
    {ts : List Token} :
    r.loneExpression ts = .ok e ↔ ∃ n ≤ r.limit, Derives (.expression e) ts n := by
  constructor
  · intro h
    exact (loneExpression_sound h).2
  · rintro ⟨n, hn, h⟩
    have he : r.expression r.limit ts = .ok (e, []) := by
      simpa using (accepts_of_derives r h).expression _ hn (Level.ends_nil _)
    simp [loneExpression, he, finish, hstop]

end Reader

open Grammar

/-- No program goes on after the end of another, and no tokens are two programs. -/
theorem Grammar.Derives.program_prefix {p p' : Program} {us vs : List Token} {m n : Nat}
    (h : Derives (.program p) us m) (h' : Derives (.program p') (us ++ vs) n) :
    vs = [] ∧ p' = p := by
  -- A reader with room for both derivations can come to one result only.
  let r : Reader := ⟨.eof .start, max m n⟩
  have happend := Reader.program_append (r := r) h (by simp only [r]; omega) vs
  rw [(Reader.program_iff (r := r) rfl).2 ⟨n, by simp only [r]; omega, h'⟩] at happend
  cases vs with
  | nil => exact ⟨rfl, Except.ok.inj happend⟩
  | cons v vs => cases happend

theorem Program.parse_eq_ok_iff {limit : Nat} {t : Text} {p : Program} :
    Program.parse limit t = .ok p ↔
      ∃ ts, Tokenized t ts ∧ ∃ n ≤ limit - 1 + 1, Derives (.program p) ts n := by
  constructor
  · intro h
    obtain ⟨⟨q, hq⟩, hd⟩ := Reader.program_sound h
    exact ⟨_, ⟨q, congrArg (Scan.mk _) hq⟩, hd⟩
  · rintro ⟨ts, ⟨q, hq⟩, hd⟩
    unfold Program.parse
    rw [hq]
    exact (Reader.program_iff rfl).2 hd

/-- A text is one program, whatever depth it is read with. -/
theorem Program.parse_unique {limit limit' : Nat} {t : Text} {p p' : Program}
    (h : Program.parse limit t = .ok p) (h' : Program.parse limit' t = .ok p') : p' = p := by
  obtain ⟨ts, ⟨q, hq⟩, n, _, hd⟩ := Program.parse_eq_ok_iff.1 h
  obtain ⟨ts', ⟨q', hq'⟩, n', _, hd'⟩ := Program.parse_eq_ok_iff.1 h'
  obtain rfl : ts ++ [] = ts' := by
    rw [List.append_nil]
    exact congrArg Scan.tokens (hq.symm.trans hq')
  exact (hd.program_prefix hd').2

theorem Expr.parse_eq_ok_iff {limit : Nat} {t : Text} {e : Expr} :
    Expr.parse limit t = .ok e ↔
      ∃ ts, Tokenized t ts ∧ ∃ n ≤ limit, Derives (.expression e) ts n := by
  constructor
  · intro h
    obtain ⟨⟨q, hq⟩, hd⟩ := Reader.loneExpression_sound h
    exact ⟨_, ⟨q, congrArg (Scan.mk _) hq⟩, hd⟩
  · rintro ⟨ts, ⟨q, hq⟩, hd⟩
    unfold Expr.parse
    rw [hq]
    exact (Reader.loneExpression_iff rfl).2 hd

/-- A reading can be told by what is made of it. -/
theorem exists_of_toOption_map {ε α β : Type} {f : α → β} {x : Except ε α} {b : β}
    (h : x.toOption.map f = some b) : ∃ a, x = .ok a ∧ f a = b := by
  cases x with
  | error e => cases h
  | ok a => exact ⟨a, rfl, Option.some.inj h⟩

/-- The error of a text that is not accepted. -/
def rejection? {α : Type} : Except Rejection α → Option Rejection
  | .error r => some r
  | .ok _ => none

theorem eq_error_of_rejection? {α : Type} {x : Except Rejection α} {r : Rejection}
    (h : rejection? x = some r) : x = .error r := by
  cases x with
  | error r' => cases h; rfl
  | ok a => cases h

theorem Program.exists_of_layout {x : Except Rejection Program} {source : String}
    (h : x.toOption.map Program.layout = some source) : ∃ p, x = .ok p ∧ p.layout = source :=
  exists_of_toOption_map h

/-- An engine accepts a text exactly when the text is tokens that the grammar derives within the
depth of the engine, and returns the tree that the derivation denotes. -/
theorem Engine.parse_iff_derives (e : Engine) (hdepth : 1 ≤ e.maxDepth) (src : List UInt8) :
    (∀ p : Program, e.parse (Text.ofBytes src) = .ok p ↔
      ∃ ts, Tokenized (Text.ofBytes src) ts ∧ ∃ n ≤ e.maxDepth, Derives (.program p) ts n) ∧
    (∀ x : Expr, e.parseExpression (Text.ofBytes src) = .ok x ↔
      ∃ ts, Tokenized (Text.ofBytes src) ts ∧ ∃ n ≤ e.maxDepth, Derives (.expression x) ts n) := by
  have hlimit : e.maxDepth - 1 + 1 = e.maxDepth := by omega
  constructor
  · intro p
    rw [Engine.parse, Program.parse_eq_ok_iff, hlimit]
  · intro x
    rw [Engine.parseExpression, Expr.parse_eq_ok_iff]

/-- The sign stands in the block, so two levels are needed, and two are enough. -/
theorem Engine.parse_iff_derives_sign :
    1 ≤ (⟨2, .truncate⟩ : Engine).maxDepth ∧
      ∃ p : Program, p.layout = "BEGIN\n  x := -1\nEND.\n" ∧
        ∃ ts, Tokenized (Text.ofBytes "BEGIN x:=-1 END.".toUTF8.toList) ts ∧
          ∃ n ≤ 2, Derives (.program p) ts n := by
  have h : ((⟨2, .truncate⟩ : Engine).parse
      (Text.ofBytes "BEGIN x:=-1 END.".toUTF8.toList)).toOption.map Program.layout =
        some "BEGIN\n  x := -1\nEND.\n" := by decide +kernel
  obtain ⟨p, hp, hlayout⟩ := Program.exists_of_layout h
  exact ⟨by decide, p, hlayout, ((Engine.parse_iff_derives _ (by decide) _).1 p).1 hp⟩

end BlockCalc
