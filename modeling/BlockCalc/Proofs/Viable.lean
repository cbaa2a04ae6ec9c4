import BlockCalc.Proofs.Canonical
import BlockCalc.Proofs.Reading

/-!
# BlockCalc.Proofs.Viable

Tokens are *viable* for a language when more tokens after them make a member of it, within the same
room. A reader gives up at the first token that is at odds with the grammar: what stands before the
token that its error names is viable, and goes on with a token of any kind that the error asks for
(`program_precise`, `loneExpression_precise`).
-/

namespace BlockCalc
namespace Grammar

/-- A lexeme of each kind. They are enough to complete whatever has been begun. -/
def completing : List Lexeme :=
  [.integer "1" 1, .ident "x", .plus, .minus, .star, .slash, .lparen, .rparen, .beginWord, .endWord,
    .assign, .dot, .semi]

def Completing (ts : List Token) : Prop := ∀ l ∈ lexemes ts, l ∈ completing

theorem Completing.append {ts us : List Token} (hts : Completing ts) (hus : Completing us) :
    Completing (ts ++ us) := by
  intro l hl
  rw [lexemes_append] at hl
  exact (List.mem_append.1 hl).elim (hts l) (hus l)

theorem completing_single (l : Lexeme) (p : Position) (h : l ∈ completing) :
    Completing [⟨l, p⟩] := by
  simpa [Completing] using h

/-- Lists of tokens, each with how deep it nests. -/
abbrev Language := List Token → Nat → Prop

/-- The tokens of the phrases of one kind. -/
def Language.of {α : Type} (phrase : α → Phrase) : Language :=
  fun ts n => ∃ a, Derives (phrase a) ts n

/-- A statement before any token. -/
def Language.statement : Language := fun ts n => ∃ s next, Derives (.statement s next) ts n

/-- The statements of a block and its `END`. -/
def Language.body : Language :=
  fun ts n => ∃ b q us, ts = us ++ [⟨.endWord, q⟩] ∧ Derives (.statements b q) us n

/-- Completing tokens after `us` make a member of `L` that nests at most `room` deep. -/
def Viable (L : Language) (room : Nat) (us : List Token) : Prop :=
  ∃ more n, Completing more ∧ n ≤ room ∧ L (us ++ more) n

/-- A token of kind `κ` can come after `us`, if there is room enough. -/
def CanFollow (L : Language) (us : List Token) (κ : TokenKind) : Prop :=
  ∃ l p room, l.kind = κ ∧ l ∈ completing ∧ Viable L room (us ++ [⟨l, p⟩])

theorem viable_of_mem {L : Language} {us : List Token} {n room : Nat} (h : L us n)
    (hn : n ≤ room) : Viable L room us :=
  ⟨[], n, nofun, hn, by rwa [List.append_nil]⟩

theorem Derives.viable {α : Type} {phrase : α → Phrase} {a : α} {us : List Token} {n room : Nat}
    (h : Derives (phrase a) us n) (hn : n ≤ room) : Viable (.of phrase) room us :=
  viable_of_mem ⟨a, h⟩ hn

theorem Viable.mono {L : Language} {room room' : Nat} {us : List Token} (h : Viable L room us)
    (hroom : room ≤ room') : Viable L room' us := by
  obtain ⟨more, n, hmore, hn, hd⟩ := h
  exact ⟨more, n, hmore, Nat.le_trans hn hroom, hd⟩

theorem Viable.of_append {L : Language} {room : Nat} (us : List Token) {vs : List Token}
    (h : Viable L room (us ++ vs)) (hvs : Completing vs) : Viable L room us := by
  obtain ⟨more, n, hmore, hn, hd⟩ := h
  exact ⟨vs ++ more, n, hvs.append hmore, hn, by rwa [← List.append_assoc]⟩

/-! ## Expressions -/

theorem viable_factor_nil (room : Nat) : Viable (.of .factor) room [] :=
  ⟨[⟨.integer "1" 1, .nowhere⟩], 0, completing_single _ _ (by decide),
    Nat.zero_le _, .int 1 .nowhere, .integer⟩

theorem Viable.sign {room : Nat} {us : List Token} (h : Viable (.of .factor) room us) (s : Sign)
    (p : Position) : Viable (.of .factor) (room + 1) (⟨s.lexeme, p⟩ :: us) := by
  obtain ⟨more, n, hmore, hn, e, hd⟩ := h
  exact ⟨more, n + 1, hmore, Nat.succ_le_succ hn, .unary s e p, .sign hd⟩

theorem Viable.group {room : Nat} {us : List Token} (h : Viable (.of .expression) room us)
    (p : Position) : Viable (.of .factor) (room + 1) (⟨.lparen, p⟩ :: us) := by
  obtain ⟨more, n, hmore, hn, e, hd⟩ := h
  refine ⟨more ++ [⟨.rparen, .nowhere⟩], n + 1,
    hmore.append (completing_single .rparen .nowhere (by decide)), Nat.succ_le_succ hn, e, ?_⟩
  simpa using Derives.group (p := p) (q := .nowhere) hd

theorem Viable.single {k : Level} {room : Nat} {us : List Token}
    (h : Viable (.of k.operand) room us) : Viable (.of (.chain k)) room us := by
  obtain ⟨more, n, hmore, hn, e, hd⟩ := h
  exact ⟨more, n, hmore, hn, e, .single hd⟩

theorem Viable.snoc {op : BinaryOp} {l : Expr} {room m : Nat} {ts us : List Token}
    (hl : Derives (.chain op.level l) ts m) (hm : m ≤ room)
    (h : Viable (.of op.level.operand) room us) (p : Position) :
    Viable (.of (.chain op.level)) room (ts ++ ⟨op.lexeme, p⟩ :: us) := by
  obtain ⟨more, n, hmore, hn, e, hd⟩ := h
  refine ⟨more, max m n, hmore, Nat.max_le.2 ⟨hm, hn⟩, .binary op l e p, ?_⟩
  simpa using Derives.snoc (p := p) hl hd

theorem viable_operand_nil (room : Nat) : ∀ k : Level, Viable (.of k.operand) room []
  | .sum => Viable.single (k := .product) (viable_factor_nil room)
  | .product => viable_factor_nil room

/-- What opens a group or is a sign can begin a factor, one level further down. -/
theorem viable_opening {t : Token} (h : t.lexeme = .lparen ∨ ∃ s : Sign, t.lexeme = s.lexeme) :
    Viable (.of .factor) 1 [t] := by
  obtain ⟨l, p⟩ := t
  rcases h with rfl | ⟨s, rfl⟩
  · exact (viable_operand_nil 0 .sum).single.group p
  · exact (viable_factor_nil 0).sign s p

theorem canFollow_factor_nil {κ : TokenKind} (h : κ ∈ TokenKind.factorStart) :
    CanFollow (.of .factor) [] κ := by
  simp only [TokenKind.factorStart, List.mem_cons, List.not_mem_nil, or_false] at h
  rcases h with rfl | rfl | rfl | rfl | rfl
  · exact ⟨.integer "1" 1, .nowhere, 0, rfl, by decide,
      Derives.viable .integer (Nat.le_refl 0)⟩
  · exact ⟨.lparen, .nowhere, 1, rfl, by decide, viable_opening (.inl rfl)⟩
  · exact ⟨.plus, .nowhere, 1, rfl, by decide, viable_opening (.inr ⟨.plus, rfl⟩)⟩
  · exact ⟨.minus, .nowhere, 1, rfl, by decide, viable_opening (.inr ⟨.minus, rfl⟩)⟩
  · exact ⟨.ident "x", .nowhere, 0, rfl, by decide, Derives.viable .name (Nat.le_refl 0)⟩

/-! ## Statements -/

theorem viable_statement_nil (room : Nat) : Viable .statement room [] :=
  viable_of_mem ⟨.empty .nowhere, .nowhere, .empty⟩ (Nat.zero_le _)

theorem Viable.assign {room : Nat} {us : List Token} (h : Viable (.of .expression) room us)
    (x : String) (p q : Position) :
    Viable .statement room (⟨.ident x, p⟩ :: ⟨.assign, q⟩ :: us) := by
  obtain ⟨more, n, hmore, hn, e, hd⟩ := h
  exact ⟨more, n, hmore, hn, .assign x p e q, .nowhere, .assign hd⟩

theorem viable_target (room : Nat) (x : String) (p q : Position) :
    Viable .statement room [⟨.ident x, p⟩, ⟨.assign, q⟩] :=
  (viable_operand_nil room .sum).single.assign x p q

theorem Viable.one {room : Nat} {us : List Token} (h : Viable .statement room us) :
    Viable .body room us := by
  obtain ⟨more, n, hmore, hn, s, next, hd⟩ := h
  exact ⟨more ++ [⟨.endWord, next⟩], n,
    hmore.append (completing_single .endWord next (by decide)), hn, .one s, next, us ++ more,
    (List.append_assoc _ _ _).symm, .one hd⟩

theorem Viable.cons {room m : Nat} {s : Stmt} {q : Position} {ts us : List Token}
    (hs : Derives (.statement s q) ts m) (hm : m ≤ room) (h : Viable .body room us) :
    Viable .body room (ts ++ ⟨.semi, q⟩ :: us) := by
  obtain ⟨more, n, hmore, hn, b, next, vs, hvs, hd⟩ := h
  exact ⟨more, max m n, hmore, Nat.max_le.2 ⟨hm, hn⟩, .cons s b, next, ts ++ ⟨.semi, q⟩ :: vs,
    by simp [hvs], .cons hs hd⟩

/-- A statement may be the last of its block, or be followed by another. -/
theorem canFollow_statement {s : Stmt} {q : Position} {us : List Token} {n : Nat} {κ : TokenKind}
    (hs : Derives (.statement s q) us n) (h : κ ∈ [TokenKind.semi, .endWord]) :
    CanFollow .body us κ := by
  simp only [List.mem_cons, List.not_mem_nil, or_false] at h
  rcases h with rfl | rfl
  · exact ⟨.semi, q, n, rfl, by decide, (viable_statement_nil n).one.cons hs (Nat.le_refl n)⟩
  · exact ⟨.endWord, q, n, rfl, by decide,
      viable_of_mem ⟨.one s, q, us, rfl, .one hs⟩ (Nat.le_refl n)⟩

theorem Language.body.compound {ts : List Token} {n : Nat} (h : Language.body ts n)
    (p : Position) : ∃ b, Derives (.compound p b) (⟨.beginWord, p⟩ :: ts) (n + 1) := by
  obtain ⟨b, q, us, rfl, hd⟩ := h
  exact ⟨b, .compound hd⟩

theorem Viable.block {room : Nat} {us : List Token} (h : Viable .body room us) (p : Position) :
    Viable .statement (room + 1) (⟨.beginWord, p⟩ :: us) := by
  obtain ⟨more, n, hmore, hn, hbody⟩ := h
  obtain ⟨b, hd⟩ := hbody.compound p
  exact ⟨more, n + 1, hmore, Nat.succ_le_succ hn, .block p b, .nowhere, .block hd⟩

theorem Viable.program {room : Nat} {us : List Token} (h : Viable .body room us) (p : Position) :
    Viable (.of .program) (room + 1) (⟨.beginWord, p⟩ :: us) := by
  obtain ⟨more, n, hmore, hn, hbody⟩ := h
  obtain ⟨b, hd⟩ := hbody.compound p
  refine ⟨more ++ [⟨.dot, .nowhere⟩], n + 1,
    hmore.append (completing_single .dot .nowhere (by decide)), Nat.succ_le_succ hn, ⟨p, b⟩, ?_⟩
  simpa using Derives.program (q := .nowhere) hd

end Grammar

namespace Reader

open Grammar

/-- The error `e` is about the token after a viable part of `ts`, which stands after `before`. If
the token was not expected, any that was can take its place; if it nests too deep, it can stand
where there is more room. -/
def Blames (r : Reader) (L : Language) (room : Nat) (before ts : List Token) (e : Rejection) :
    Prop :=
  ∃ us rest, ts = us ++ rest ∧ Viable L room (before ++ us) ∧
    ((∃ kinds, e = r.unexpected kinds rest ∧ ∀ κ ∈ kinds, CanFollow L (before ++ us) κ) ∨
      ∃ t after, rest = t :: after ∧ e = r.tooDeep t ∧
        ∃ room', Viable L room' (before ++ us ++ [t]))

variable {r : Reader}

theorem blames_unexpected {L : Language} {room : Nat} {before : List Token}
    {kinds : List TokenKind} (h : Viable L room before)
    (hkinds : ∀ κ ∈ kinds, CanFollow L before κ) (rest : List Token) :
    r.Blames L room before rest (r.unexpected kinds rest) :=
  ⟨[], rest, rfl, by rwa [List.append_nil], .inl ⟨kinds, rfl, by rwa [List.append_nil]⟩⟩

/-- The one lexeme that can come next does not. -/
theorem blames_missing {L : Language} {room : Nat} (before : List Token) {l : Lexeme}
    {p : Position} (h : Viable L room (before ++ [⟨l, p⟩])) (hl : l ∈ completing)
    (rest : List Token) : r.Blames L room before rest (r.unexpected [l.kind] rest) := by
  refine blames_unexpected (h.of_append before (completing_single l p hl)) ?_ rest
  intro κ hκ
  cases List.mem_singleton.1 hκ
  exact ⟨l, p, room, rfl, hl, h⟩

theorem blames_tooDeep {L : Language} {room room' : Nat} {t : Token} (h : Viable L room [])
    (ht : Viable L room' [t]) (rest : List Token) :
    r.Blames L room [] (t :: rest) (r.tooDeep t) :=
  ⟨[], t :: rest, rfl, h, .inr ⟨t, rest, rfl, rfl, room', ht⟩⟩

theorem Blames.of_append {L : Language} {room : Nat} {before : List Token} (us : List Token)
    {ts : List Token} {e : Rejection} (h : r.Blames L room (before ++ us) ts e) :
    r.Blames L room before (us ++ ts) e := by
  obtain ⟨vs, rest, rfl, hvs, he⟩ := h
  rw [List.append_assoc] at hvs he
  exact ⟨us ++ vs, rest, (List.append_assoc _ _ _).symm, hvs, he⟩

theorem Blames.whole {L : Language} {room : Nat} {us ts : List Token} {e : Rejection}
    (h : r.Blames L room us ts e) : r.Blames L room [] (us ++ ts) e :=
  Blames.of_append us (by rwa [List.nil_append])

/-- An error inside a part of a phrase is an error of the phrase, where the part can go on in the
phrase as it can on its own. -/
theorem Blames.within {inner outer : Language} {room : Nat} {ts : List Token} {e : Rejection}
    (h : r.Blames inner room [] ts e) (c : Nat) (before : List Token)
    (hpart : ∀ {room' us}, room ≤ room' → Viable inner room' us →
      Viable outer (room' + c) (before ++ us)) :
    r.Blames outer (room + c) before ts e := by
  -- what can follow may need more room than the part has
  have hlater : ∀ {us room'}, Viable inner room' us →
      Viable outer (max room room' + c) (before ++ us) := fun hus =>
    hpart (Nat.le_max_left _ _) (hus.mono (Nat.le_max_right _ _))
  obtain ⟨us, rest, rfl, hus, he⟩ := h
  refine ⟨us, rest, rfl, hpart (Nat.le_refl _) hus, ?_⟩
  rcases he with ⟨kinds, rfl, hkinds⟩ | ⟨t, after, rfl, rfl, room', ht⟩
  · refine .inl ⟨kinds, rfl, fun κ hκ => ?_⟩
    obtain ⟨l, p, room', hkind, hmem, hl⟩ := hkinds κ hκ
    exact ⟨l, p, _, hkind, hmem, by simpa using hlater hl⟩
  · exact .inr ⟨t, after, rfl, rfl, _, by simpa using hlater ht⟩

/-- The errors of a reader are about the token after a viable part. -/
def Precise {α : Type} (r : Reader) (L : Language) (room : Nat) (read : List Token → Parsed α) :
    Prop :=
  ∀ {ts : List Token} {e : Rejection}, read ts = .error e → r.Blames L room [] ts e

theorem chain_precise {room : Nat} {k : Level} {read : List Token → Parsed Expr}
    (hread : r.Precise (.of k.operand) room read) (hsound : Sound room k.operand read) :
    ∀ {fuel m : Nat} {l : Expr} {before ts : List Token} {e : Rejection},
      Derives (.chain k l) before m → m ≤ room → chain k.op? read fuel l ts = .error e →
      r.Blames (.of (.chain k)) room before ts e := by
  intro fuel
  induction fuel with
  | zero => intro m l before ts e _ _ h; simp [chain] at h
  | succ fuel ih =>
    intro m l before ts e hl hm h
    cases ts with
    | nil => simp [chain] at h
    | cons t ts =>
      obtain ⟨lexeme, p⟩ := t
      simp only [chain] at h
      split at h
      · cases h
      · rename_i op hop
        obtain ⟨rfl, rfl⟩ := Level.op?_eq_some.1 hop
        split at h
        · rename_i e' he
          cases h
          refine Blames.of_append [_] ((hread he).within 0 _ fun hroom hus => ?_)
          simpa using hus.snoc hl (Nat.le_trans hm hroom) p
        · rename_i x rest hx
          obtain ⟨us, n, rfl, hn, hus⟩ := hsound hx
          have := ih (Derives.snoc (p := p) hl hus) (Nat.max_le.2 ⟨hm, hn⟩) h
          exact this.of_append (_ :: us)

theorem level_precise {room : Nat} {k : Level} {read : List Token → Parsed Expr}
    (hread : r.Precise (.of k.operand) room read) (hsound : Sound room k.operand read) :
    r.Precise (.of (.chain k)) room (level k.op? read) := by
  intro ts e h
  simp only [level] at h
  split at h
  · rename_i e' he
    cases h
    exact (hread he).within 0 [] fun _ hus => hus.single
  · rename_i l rest hl
    obtain ⟨us, n, rfl, hn, hus⟩ := hsound hl
    exact (chain_precise hread hsound hus.single hn h).whole

theorem expression_precise_of_factor {room : Nat}
    (hfactor : r.Precise (.of .factor) room (r.factor room)) :
    r.Precise (.of .expression) room (r.expression room) :=
  level_precise (k := .sum) (level_precise (k := .product) hfactor (factor_sound r room))
    (operand_sound (factor_sound r room) .sum)

theorem closeGroup_precise {room : Nat} {p : Position} {ts : List Token} {e : Rejection}
    (hexpr : r.Precise (.of .expression) room (r.expression room))
    (h : r.closeGroup (r.expression room ts) = .error e) :
    r.Blames (.of .factor) (room + 1) [⟨.lparen, p⟩] ts e := by
  unfold closeGroup at h
  split at h
  · rename_i e' he
    cases h
    exact (hexpr he).within 1 [_] fun _ hus => hus.group p
  · rename_i x rest hx
    obtain ⟨us, n, rfl, hn, hus⟩ := expression_sound r room hx
    split at h
    · cases h
    · cases h
      have hgroup : Viable (.of .factor) (room + 1)
          (⟨.lparen, p⟩ :: (us ++ [⟨.rparen, .nowhere⟩])) :=
        Derives.viable (.group hus) (Nat.succ_le_succ hn)
      exact (blames_missing (_ :: us) hgroup (by decide) rest).of_append us

theorem factor_precise (r : Reader) :
    ∀ room : Nat, r.Precise (.of .factor) room (r.factor room) := by
  intro room
  induction room using Nat.strongRecOn with
  | ind room ih =>
    intro ts e h
    have hstart : ∀ κ ∈ TokenKind.factorStart, CanFollow (.of .factor) [] κ :=
      fun κ => canFollow_factor_nil
    cases factorHead room ts with
    | none =>
      rw [factor_nil] at h; cases h
      exact blames_unexpected (viable_factor_nil _) hstart []
    | integer => rw [factor_integer] at h; cases h
    | name => rw [factor_name] at h; cases h
    | @group room p rest =>
      rw [factor_group] at h
      exact (closeGroup_precise (expression_precise_of_factor (ih room (by omega))) h).whole
    | @sign room s p rest =>
      rw [factor_sign] at h
      have hfactor := ih room (by omega) (Parsed.map_eq_error h)
      exact (hfactor.within 1 [_] fun _ hus => hus.sign s p).whole
    | full ht =>
      rw [factor_full ht] at h; cases h
      exact blames_tooDeep (viable_factor_nil _) (viable_opening ht) _
    | other hk =>
      rw [factor_other hk] at h; cases h
      exact blames_unexpected (viable_factor_nil _) hstart _

theorem expression_precise (r : Reader) (room : Nat) :
    r.Precise (.of .expression) room (r.expression room) :=
  expression_precise_of_factor (factor_precise r room)

theorem assignment_precise {room : Nat} {x : String} {p : Position} {ts : List Token}
    {e : Rejection} (h : r.assignment room x p ts = .error e) :
    r.Blames .statement room [⟨.ident x, p⟩] ts e := by
  obtain ⟨q, ts, rfl⟩ | hx := assignment_cases r room x p ts
  · rw [assignment_assign] at h
    have hvalue := expression_precise r room (Parsed.map_eq_error h)
    exact (hvalue.within 0 [_, _] fun _ hus => hus.assign x p q).of_append [_]
  · rw [hx] at h; cases h
    exact blames_missing [_] (viable_target room x p .nowhere) (by decide) ts

theorem statements_precise {room : Nat} {read : List Token → Parsed Stmt}
    (hread : r.Precise .statement room read) (hsound : SoundStatement r room read) :
    ∀ {fuel : Nat} {ts : List Token} {e : Rejection}, ts.length < fuel →
      r.statements read fuel ts = .error e → r.Blames .body room [] ts e := by
  intro fuel
  induction fuel with
  | zero => intro ts e hfuel _; cases hfuel
  | succ fuel ih =>
    intro ts e hfuel h
    generalize hs : read ts = x
    cases statementEnd x with
    | failed =>
      rw [statements_failed hs] at h; cases h
      exact (hread hs).within 0 [] fun _ hus => hus.one
    | @semi s q rest =>
      rw [statements_semi hs] at h
      obtain ⟨us, m, rfl, hm, hus⟩ := hsound hs
      simp only [List.length_append, List.length_cons] at hfuel
      have hrest := ih (by omega) (Parsed.map_eq_error h)
      have := hrest.within 0 (us ++ [⟨.semi, q⟩]) fun hroom hvs => by
        simpa [here] using hvs.cons hus (Nat.le_trans hm hroom)
      simpa using this.whole
    | last => rw [statements_last hs] at h; cases h
    | @other s rest hother =>
      rw [statements_other hs hother] at h; cases h
      obtain ⟨us, m, rfl, hm, hus⟩ := hsound hs
      have hviable : Viable .statement room us := viable_of_mem ⟨s, _, hus⟩ hm
      exact (blames_unexpected hviable.one (fun κ => canFollow_statement hus) rest).whole

theorem body_precise {room : Nat} {read : List Token → Parsed Stmt}
    (hread : r.Precise .statement room read) (hsound : SoundStatement r room read) :
    r.Precise .body room (r.body read) :=
  fun h => statements_precise hread hsound (Nat.lt_succ_self _) h

theorem statement_precise (r : Reader) :
    ∀ room : Nat, r.Precise .statement room (r.statement room) := by
  intro room
  induction room using Nat.strongRecOn with
  | ind room ih =>
    intro ts e h
    cases statementHead room ts with
    | none => rw [statement_nil] at h; cases h
    | @block room p rest =>
      rw [statement_block] at h
      have hbody := body_precise (ih room (by omega)) (statement_sound r room)
        (Parsed.map_eq_error h)
      exact (hbody.within 1 [_] fun _ hus => hus.block p).whole
    | @full p rest =>
      rw [statement_full] at h; cases h
      exact blames_tooDeep (viable_statement_nil _) ((viable_statement_nil 0).one.block p) _
    | name =>
      rw [statement_name] at h
      exact (assignment_precise h).whole
    | other hb hi => rw [statement_other hb hi] at h; cases h

theorem finish_error {α : Type} {a : α} {ts : List Token} {e : Rejection}
    (h : r.finish a ts = .error e) : e = r.unexpected [.eof] ts := by
  unfold finish at h
  split at h
  · cases h; rfl
  · split at h
    · cases h
    · rename_i e' hstop; cases h; simp [unexpected, hstop]

/-- The error `e` of a whole text is about the token after a viable part, as `Blames` has it; or
the text goes on where it should end. -/
def LeftAt (r : Reader) (L : Language) (room : Nat) (ts : List Token) (e : Rejection) : Prop :=
  ∃ us rest, ts = us ++ rest ∧ Viable L room us ∧
    ((∃ kinds, e = r.unexpected kinds rest ∧
        ∀ κ ∈ kinds, CanFollow L us κ ∨ κ = .eof ∧ ∃ n, L us n) ∨
      ∃ t after, rest = t :: after ∧ e = r.tooDeep t ∧ ∃ room', Viable L room' (us ++ [t]))

theorem Blames.leftAt {L : Language} {room : Nat} {ts : List Token} {e : Rejection}
    (h : r.Blames L room [] ts e) : r.LeftAt L room ts e := by
  obtain ⟨us, rest, hts, hus, he⟩ := h
  refine ⟨us, rest, hts, hus, he.imp_left ?_⟩
  rintro ⟨kinds, he, hkinds⟩
  exact ⟨kinds, he, fun κ hκ => .inl (hkinds κ hκ)⟩

theorem finish_leftAt {α : Type} {L : Language} {room n : Nat} {a : α} {us rest : List Token}
    {e : Rejection} (hus : L us n) (hn : n ≤ room) (h : r.finish a rest = .error e) :
    r.LeftAt L room (us ++ rest) e := by
  refine ⟨us, rest, rfl, viable_of_mem hus hn, .inl ⟨_, finish_error h, fun κ hκ => ?_⟩⟩
  exact .inr ⟨List.mem_singleton.1 hκ, n, hus⟩

theorem program_precise {ts : List Token} {e : Rejection} (h : r.program ts = .error e) :
    r.LeftAt (.of .program) (r.limit - 1 + 1) ts e := by
  obtain ⟨p, ts, rfl⟩ | hx := program_cases r ts
  · rcases program_error h with he | ⟨b, rest, hb, hrest⟩
    · have hbody := body_precise (statement_precise r _) (statement_sound r _) he
      exact (hbody.within 1 [_] fun _ hus => hus.program p).whole.leftAt
    · obtain ⟨us, q', n, rfl, hn, hus⟩ := statements_sound (statement_sound r _) hb
      have hcompound := Derives.compound (p := p) hus
      rcases hrest with ⟨q, rest, rfl, hfinish⟩ | ⟨_, rfl⟩
      · have hd := Derives.program (q := q) hcompound
        simpa using finish_leftAt (L := .of .program) ⟨_, hd⟩ (Nat.succ_le_succ hn) hfinish
      · have hd := Derives.program (q := .nowhere) hcompound
        have := blames_missing (r := r) _ (hd.viable (Nat.succ_le_succ hn)) (by decide) rest
        simpa [Lexeme.kind] using this.whole.leftAt
  · rw [hx] at h; cases h
    have hbegin := (viable_statement_nil (r.limit - 1)).one.program .nowhere
    exact (blames_missing [] hbegin (by decide) ts).leftAt

theorem loneExpression_precise {ts : List Token} {e : Rejection}
    (h : r.loneExpression ts = .error e) : r.LeftAt (.of .expression) r.limit ts e := by
  unfold loneExpression at h
  split at h
  · rename_i e' he
    cases h
    exact (expression_precise r _ he).leftAt
  · rename_i x rest hx
    obtain ⟨us, n, rfl, hn, hus⟩ := expression_sound r _ hx
    exact finish_leftAt ⟨x, hus⟩ hn h

end Reader
end BlockCalc
