import BlockCalc.Proofs.Viable

/-!
# BlockCalc.Proofs.Lookahead

What a reader finds is settled by the kinds of the tokens that it has looked at, and by its room.
Two lists that begin alike are therefore read in step as far as they are alike (`Agree`). So where
one of them is accepted, the other is left for want of room or beyond what they share
(`program_lockstep`, `loneExpression_lockstep`).
-/

namespace BlockCalc

/-- Most kinds have one lexeme. -/
theorem Lexeme.eq_of_kind_eq {l l' : Lexeme} (h : l.kind = l'.kind) (hint : l.kind ≠ .integer)
    (hident : l.kind ≠ .ident) : l' = l := by
  cases l <;> cases l' <;> first | rfl | simp [kind] at h hint hident

/-- The error `e` is about the first of the tokens, or about the end of the text after them. -/
def ParseError.IsAt (e : ParseError) (stop : Stop) : List Token → Prop
  | t :: _ => e.pos = t.pos ∧ e.found = some t.lexeme
  | [] => stop = .eof e.pos ∧ e.found = none

namespace Reader

open Grammar

/-- Lists of tokens that have the same kinds, up to where the first goes on with `after`; if no
such place is given, up to their end. -/
inductive Alike : Option (List Token) → List Token → List Token → Prop where
  | ended : Alike none [] []
  | parted {after more : List Token} : Alike (some after) after more
  | step {after : Option (List Token)} {t u : Token} {ts us : List Token} :
      t.lexeme.kind = u.lexeme.kind → Alike after ts us → Alike after (t :: ts) (u :: us)

theorem alike_refl : ∀ ts : List Token, Alike none ts ts
  | [] => .ended
  | _ :: ts => .step rfl (alike_refl ts)

theorem Alike.append {after : Option (List Token)} {ts us : List Token} (h : Alike after ts us) :
    ∀ vs : List Token, Alike after (vs ++ ts) (vs ++ us)
  | [] => h
  | _ :: vs => .step rfl (h.append vs)

/-- The part of the first list that the second need not share. -/
def Beyond (after : Option (List Token)) (ts : List Token) : Prop := ∃ vs ∈ after, ts <:+ vs

theorem beyond_parted (ts : List Token) : Beyond (some ts) ts := ⟨ts, rfl, List.suffix_refl ts⟩

theorem Beyond.suffix {after : Option (List Token)} {ts us : List Token} (h : Beyond after ts)
    (hus : us <:+ ts) : Beyond after us := by
  obtain ⟨vs, hvs, hts⟩ := h
  exact ⟨vs, hvs, hus.trans hts⟩

/-- The error `e` is about the first token of `ts`, or about their end. -/
def Concerns (r : Reader) (e : Rejection) (ts : List Token) : Prop :=
  (∃ kinds, e = r.unexpected kinds ts) ∨ ∃ t after, ts = t :: after ∧ e = r.tooDeep t

variable {r r' : Reader} {after : Option (List Token)} {c : Nat}

theorem Blames.concerns {L : Language} {room : Nat} {before ts : List Token} {e : Rejection}
    (h : r.Blames L room before ts e) : ∃ rest, rest <:+ ts ∧ r.Concerns e rest := by
  obtain ⟨us, rest, rfl, _, ⟨kinds, he, _⟩ | ⟨t, after, hrest, he, _⟩⟩ := h
  · exact ⟨rest, List.suffix_append us rest, .inl ⟨kinds, he⟩⟩
  · exact ⟨rest, List.suffix_append us rest, .inr ⟨t, after, hrest, he⟩⟩

theorem LeftAt.concerns {L : Language} {room : Nat} {ts : List Token} {e : Rejection}
    (h : r.LeftAt L room ts e) :
    ∃ us rest, ts = us ++ rest ∧ Viable L room us ∧ r.Concerns e rest := by
  obtain ⟨us, rest, hts, hus, ⟨kinds, he, _⟩ | ⟨t, after, hrest, he, _⟩⟩ := h
  · exact ⟨us, rest, hts, hus, .inl ⟨kinds, he⟩⟩
  · exact ⟨us, rest, hts, hus, .inr ⟨t, after, hrest, he⟩⟩

theorem unexpected_parse {kinds : List TokenKind} {ts : List Token} {e : ParseError}
    (h : .parse e = r.unexpected kinds ts) : e.IsAt r.stop ts ∧ e.fault = .expected kinds := by
  match ts with
  | t :: ts => cases h; exact ⟨⟨rfl, rfl⟩, rfl⟩
  | [] =>
    unfold unexpected at h
    cases hstop : r.stop with
    | eof p => rw [hstop] at h; cases h; exact ⟨⟨rfl, rfl⟩, rfl⟩
    | fault e => rw [hstop] at h; cases h

theorem unexpected_lex {kinds : List TokenKind} {ts : List Token} {e : LexError}
    (h : .lex e = r.unexpected kinds ts) : ts = [] ∧ r.stop = .fault e := by
  match ts with
  | t :: ts => cases h
  | [] =>
    unfold unexpected at h
    cases hstop : r.stop with
    | eof p => rw [hstop] at h; cases h
    | fault e => rw [hstop] at h; cases h; exact ⟨rfl, rfl⟩

theorem Concerns.isAt {ts : List Token} {e : ParseError} (h : r.Concerns (.parse e) ts) :
    e.IsAt r.stop ts := by
  rcases h with ⟨kinds, he⟩ | ⟨t, after, rfl, he⟩
  · exact (unexpected_parse he).1
  · cases he; exact ⟨rfl, rfl⟩

/-- The answers `x` and `y` of two readers in step, of which the second has `c` levels more room:
they are of one sort, unless the first ran out of room or has gone beyond what the lists share. -/
inductive Agree {α : Type} (r : Reader) (after : Option (List Token)) (c : Nat) :
    Parsed α → Parsed α → Prop where
  | both {a b : α} {rest rest' : List Token} :
      Alike after rest rest' → Agree r after c (.ok (a, rest)) (.ok (b, rest'))
  | rejected {e e' : Rejection} : Agree r after c (.error e) (.error e')
  | deeper {t : Token} {y : Parsed α} : 0 < c → Agree r after c (.error (r.tooDeep t)) y
  | beyond {a : α} {rest : List Token} {y : Parsed α} :
      Beyond after rest → Agree r after c (.ok (a, rest)) y
  | beyondError {e : Rejection} {rest : List Token} {y : Parsed α} :
      Beyond after rest → r.Concerns e rest → Agree r after c (.error e) y

theorem Agree.map {α β : Type} {x y : Parsed α} (h : r.Agree after c x y) (f g : α → β) :
    r.Agree after c (x.map f) (y.map g) := by
  cases h with
  | both hrest => exact .both hrest
  | rejected => exact .rejected
  | deeper hc => exact .deeper hc
  | beyond hrest => exact .beyond hrest
  | beyondError hrest he => exact .beyondError hrest he

/-- Reading on from beyond what the lists share stays there. -/
theorem agree_of_beyond {α : Type} {ts : List Token} {x y : Parsed α} (hts : Beyond after ts)
    (hok : ∀ {a rest}, x = .ok (a, rest) → rest <:+ ts)
    (herror : ∀ {e}, x = .error e → ∃ rest, rest <:+ ts ∧ r.Concerns e rest) :
    r.Agree after c x y := by
  match x with
  | .ok (a, rest) => exact .beyond (hts.suffix (hok rfl))
  | .error e =>
    obtain ⟨rest, hrest, he⟩ := herror rfl
    exact .beyondError (hts.suffix hrest) he

/-- With no more room than the first the second gives up as well. -/
theorem agree_tooDeep {α : Type} {t : Token} {y : Parsed α} (h : c = 0 → ∃ e, y = .error e) :
    r.Agree after c (.error (r.tooDeep t)) y := by
  by_cases hc : 0 < c
  · exact .deeper hc
  · obtain ⟨e, rfl⟩ := h (by omega)
    exact .rejected

/-- Two readers agree on all lists that are alike. -/
def InStep {α : Type} (r : Reader) (after : Option (List Token)) (c : Nat)
    (read read' : List Token → Parsed α) : Prop :=
  ∀ ⦃ts ts' : List Token⦄, Alike after ts ts' → r.Agree after c (read ts) (read' ts')

/-! ## Expressions -/

theorem Sound.suffix {room : Nat} {phrase : Expr → Phrase} {read : List Token → Parsed Expr}
    (h : Sound room phrase read) {ts rest : List Token} {e : Expr} (hok : read ts = .ok (e, rest)) :
    rest <:+ ts := by
  obtain ⟨us, _, rfl, _⟩ := h hok
  exact List.suffix_append us rest

theorem chain_nil {op? : Lexeme → Option BinaryOp} {read : List Token → Parsed Expr} {fuel : Nat}
    {l : Expr} : chain op? read fuel l [] = .ok (l, []) := by
  cases fuel <;> rfl

theorem op?_congr {l l' : Lexeme} (k : Level) (h : l.kind = l'.kind) :
    k.op? l = k.op? l' := by
  cases k <;> cases l <;> cases l' <;> first | rfl | cases h

section

variable {room room' : Nat} {k : Level} {read read' : List Token → Parsed Expr}

theorem chain_beyond (hsound : Sound room k.operand read)
    (hprecise : r.Precise (.of k.operand) room read) {fuel m : Nat} {l : Expr}
    {before ts : List Token} {y : Parsed Expr} (hl : Derives (.chain k l) before m)
    (hm : m ≤ room) (hts : Beyond after ts) :
    r.Agree after c (chain k.op? read fuel l ts) y := by
  refine agree_of_beyond hts (fun h => ?_) fun h => ?_
  · obtain ⟨us, _, rfl, _⟩ := chain_sound hsound h
    exact List.suffix_append us _
  · exact (chain_precise hprecise hsound hl hm h).concerns

theorem chain_inStep (hread : r.InStep after c read read') (hsound : Sound room k.operand read)
    (hprecise : r.Precise (.of k.operand) room read) (hsound' : Sound room' k.operand read') :
    ∀ {fuel fuel' m : Nat} {l l' : Expr} {before ts ts' : List Token},
      Derives (.chain k l) before m → m ≤ room → Alike after ts ts' →
      ts.length ≤ fuel → ts'.length ≤ fuel' →
      r.Agree after c (chain k.op? read fuel l ts) (chain k.op? read' fuel' l' ts') := by
  -- on the fuel; `l` stays derived from what has been read, so that its errors can be placed
  intro fuel
  induction fuel with
  | zero =>
    intro fuel' m l l' before ts ts' hl hm h hfuel _
    cases h with
    | ended => rw [chain_nil, chain_nil]; exact .both .ended
    | parted => exact chain_beyond hsound hprecise hl hm (beyond_parted ts)
    | step => cases hfuel
  | succ fuel ih =>
    intro fuel' m l l' before ts ts' hl hm h hfuel hfuel'
    cases h with
    | ended => rw [chain_nil, chain_nil]; exact .both .ended
    | parted => exact chain_beyond hsound hprecise hl hm (beyond_parted ts)
    | @step _ t u ts us hk h =>
      simp only [List.length_cons] at hfuel hfuel'
      obtain ⟨fuel', rfl⟩ : ∃ m, fuel' = m + 1 := ⟨fuel' - 1, by omega⟩
      simp only [chain, ← op?_congr k hk]
      split
      · exact .both (.step hk h)
      · rename_i op hop
        obtain ⟨rfl, _⟩ := Level.op?_eq_some.1 hop
        have hagree := hread h
        generalize hx : read ts = x at hagree
        generalize hy : read' us = y at hagree
        cases hagree with
        | both hrest =>
          -- both operands were taken, and both lists got shorter
          obtain ⟨vs, n, rfl, hn, hvs⟩ := hsound hx
          obtain ⟨vs', _, rfl, _⟩ := hsound' hy
          simp only [List.length_append] at hfuel hfuel'
          exact ih (hl.snoc hvs) (Nat.max_le.2 ⟨hm, hn⟩) hrest (by omega) (by omega)
        | rejected => exact .rejected
        | deeper hc => exact .deeper hc
        | beyond hrest =>
          obtain ⟨vs, n, rfl, hn, hvs⟩ := hsound hx
          exact chain_beyond hsound hprecise (hl.snoc (p := t.pos) hvs) (Nat.max_le.2 ⟨hm, hn⟩)
            hrest
        | beyondError hrest he => exact .beyondError hrest he

theorem level_inStep (hread : r.InStep after c read read') (hsound : Sound room k.operand read)
    (hprecise : r.Precise (.of k.operand) room read) (hsound' : Sound room' k.operand read') :
    r.InStep after c (level k.op? read) (level k.op? read') := by
  intro ts ts' h
  have hagree := hread h
  unfold level
  generalize hx : read ts = x at hagree
  generalize read' ts' = y at hagree
  cases hagree with
  | both hrest =>
    obtain ⟨us, n, rfl, hn, hus⟩ := hsound hx
    exact chain_inStep hread hsound hprecise hsound' hus.single hn hrest (Nat.le_refl _)
      (Nat.le_refl _)
  | rejected => exact .rejected
  | deeper hc => exact .deeper hc
  | beyond hrest =>
    obtain ⟨us, n, rfl, hn, hus⟩ := hsound hx
    exact chain_beyond hsound hprecise hus.single hn hrest
  | beyondError hrest he => exact .beyondError hrest he

end

theorem expression_inStep_of_factor {room room' : Nat}
    (hfactor : r.InStep after c (r.factor room) (r'.factor room')) :
    r.InStep after c (r.expression room) (r'.expression room') := by
  have hsound : Sound room .factor (r.factor room) := factor_sound r room
  have hsound' : Sound room' .factor (r'.factor room') := factor_sound r' room'
  have hprecise : r.Precise (.of .factor) room (r.factor room) := factor_precise r room
  exact level_inStep (k := .sum) (level_inStep (k := .product) hfactor hsound hprecise hsound')
    (operand_sound hsound .sum) (level_precise (k := .product) hprecise hsound)
    (operand_sound hsound' .sum)

theorem closeGroup_beyond {e : Expr} {rest : List Token} {y : Parsed Expr}
    (hrest : Beyond after rest) : r.Agree after c (r.closeGroup (.ok (e, rest))) y := by
  match rest with
  | [] => exact .beyondError hrest (.inl ⟨_, rfl⟩)
  | t :: rest =>
    by_cases hk : t.lexeme.kind = .rparen
    · obtain ⟨l, p⟩ := t
      cases l <;> cases hk
      exact .beyond (hrest.suffix (List.suffix_cons _ rest))
    · rw [closeGroup_other hk]
      exact .beyondError hrest (.inl ⟨_, rfl⟩)

theorem closeGroup_inStep {x y : Parsed Expr} (h : r.Agree after c x y) :
    r.Agree after c (r.closeGroup x) (r'.closeGroup y) := by
  cases h with
  | both h =>
    cases h with
    | ended => exact .rejected
    | parted => exact closeGroup_beyond (beyond_parted _)
    | @step _ t u _ _ hk h =>
      by_cases hclose : t.lexeme.kind = .rparen
      · obtain ⟨l, p⟩ := t
        obtain ⟨l', q⟩ := u
        cases l <;> cases hclose
        cases l' <;> cases hk
        exact .both h
      · rw [closeGroup_other hclose, closeGroup_other (hk ▸ hclose)]
        exact .rejected
  | rejected => exact .rejected
  | deeper hc => exact .deeper hc
  | beyond hrest => exact closeGroup_beyond hrest
  | beyondError hrest he => exact .beyondError hrest he

theorem factor_inStep (r r' : Reader) (after : Option (List Token)) (c : Nat) :
    ∀ room : Nat, r.InStep after c (r.factor room) (r'.factor (room + c)) := by
  intro room
  induction room using Nat.strongRecOn with
  | ind room ih =>
    intro ts ts' h
    cases h with
    | ended => rw [factor_nil, factor_nil]; exact .rejected
    | parted =>
      exact agree_of_beyond (beyond_parted ts) (Sound.suffix (factor_sound r room))
        fun h => (factor_precise r room h).concerns
    | @step _ t u ts us hk h =>
      obtain ⟨l, q⟩ := u
      cases factorHead room (t :: ts) with
      | integer =>
        cases l <;> cases hk
        rw [factor_integer, factor_integer]
        exact .both h
      | name =>
        cases l <;> cases hk
        rw [factor_name, factor_name]
        exact .both h
      | @group room p rest =>
        cases l <;> cases hk
        rw [Nat.add_right_comm, factor_group, factor_group]
        exact closeGroup_inStep (expression_inStep_of_factor (ih room (by omega)) h)
      | @sign room s p rest =>
        obtain rfl : l = s.lexeme := by cases s <;> exact Lexeme.eq_of_kind_eq hk nofun nofun
        rw [Nat.add_right_comm, factor_sign, factor_sign]
        exact (ih room (by omega) h).map _ _
      | full ht =>
        have hu : l = .lparen ∨ ∃ s : Sign, l = s.lexeme := by
          rcases ht with ht | ⟨s, ht⟩ <;> rw [ht] at hk
          · exact .inl (Lexeme.eq_of_kind_eq hk nofun nofun)
          · exact .inr ⟨s, by cases s <;> exact Lexeme.eq_of_kind_eq hk nofun nofun⟩
        rw [factor_full ht]
        refine agree_tooDeep ?_
        rintro rfl
        exact ⟨_, factor_full hu⟩
      | other hother =>
        rw [factor_other hother, factor_other (hk ▸ hother)]
        exact .rejected

theorem expression_inStep (r r' : Reader) (after : Option (List Token)) (c room : Nat) :
    r.InStep after c (r.expression room) (r'.expression (room + c)) :=
  expression_inStep_of_factor (factor_inStep r r' after c room)

/-! ## Statements -/

theorem assignment_suffix {room : Nat} {x : String} {p : Position} {ts rest : List Token}
    {s : Stmt} (h : r.assignment room x p ts = .ok (s, rest)) : rest <:+ ts := by
  obtain ⟨q, ts, rfl⟩ | hx := assignment_cases r room x p ts
  · rw [assignment_assign] at h
    obtain ⟨e, he, rfl⟩ := Parsed.map_eq_ok h
    exact (Sound.suffix (expression_sound r room) he).trans (List.suffix_cons _ ts)
  · rw [hx] at h; cases h

theorem assignment_inStep (room : Nat) (x x' : String) (p p' : Position) :
    r.InStep after c (r.assignment room x p) (r'.assignment (room + c) x' p') := by
  intro ts ts' h
  cases h with
  | ended => exact .rejected
  | parted =>
    exact agree_of_beyond (beyond_parted ts) assignment_suffix
      fun h => (assignment_precise h).concerns
  | @step _ t u ts us hk h =>
    by_cases hassign : t.lexeme.kind = .assign
    · obtain ⟨l, q⟩ := t
      obtain ⟨l', q'⟩ := u
      cases l <;> cases hassign
      cases l' <;> cases hk
      rw [assignment_assign, assignment_assign]
      exact (expression_inStep r r' after c room h).map _ _
    · rw [assignment_other hassign, assignment_other (hk ▸ hassign)]
      exact .rejected

section

variable {room room' : Nat} {read read' : List Token → Parsed Stmt}

theorem SoundStatement.suffix (h : SoundStatement r room read) {ts rest : List Token} {s : Stmt}
    (hok : read ts = .ok (s, rest)) : rest <:+ ts := by
  obtain ⟨us, _, rfl, _⟩ := h hok
  exact List.suffix_append us rest

theorem statements_suffix (hsound : SoundStatement r room read) {fuel : Nat} {b : Stmts}
    {ts rest : List Token} (h : r.statements read fuel ts = .ok (b, rest)) : rest <:+ ts := by
  obtain ⟨us, q, _, rfl, _⟩ := statements_sound hsound h
  exact (List.suffix_cons _ rest).trans (List.suffix_append us _)

theorem statements_beyond (hsound : SoundStatement r room read)
    (hprecise : r.Precise .statement room read) {fuel : Nat} {s : Stmt} {ts rest : List Token}
    {y : Parsed Stmts} (hs : read ts = .ok (s, rest)) (hrest : Beyond after rest)
    (hfuel : ts.length < fuel + 1) : r.Agree after c (r.statements read (fuel + 1) ts) y := by
  cases statementEnd (.ok (s, rest)) with
  | @semi _ q rest =>
    obtain ⟨us, _, rfl, _⟩ := hsound hs
    simp only [List.length_append, List.length_cons] at hfuel
    rw [statements_semi hs]
    refine agree_of_beyond (hrest.suffix (List.suffix_cons _ rest)) (fun h => ?_) fun h => ?_
    · obtain ⟨b, hb, _⟩ := Parsed.map_eq_ok h
      exact statements_suffix hsound hb
    · exact (statements_precise hprecise hsound (by omega) (Parsed.map_eq_error h)).concerns
  | last => rw [statements_last hs]; exact .beyond (hrest.suffix (List.suffix_cons _ _))
  | other hother => rw [statements_other hs hother]; exact .beyondError hrest (.inl ⟨_, rfl⟩)

theorem statements_inStep (hread : r.InStep after c read read')
    (hsound : SoundStatement r room read) (hprecise : r.Precise .statement room read)
    (hsound' : SoundStatement r' room' read') :
    ∀ {fuel fuel' : Nat} {ts ts' : List Token}, Alike after ts ts' →
      ts.length < fuel → ts'.length < fuel' →
      r.Agree after c (r.statements read fuel ts) (r'.statements read' fuel' ts') := by
  intro fuel
  induction fuel with
  | zero => intro fuel' ts ts' _ hfuel; cases hfuel
  | succ fuel ih =>
    intro fuel' ts ts' h hfuel hfuel'
    obtain ⟨fuel', rfl⟩ : ∃ m, fuel' = m + 1 := ⟨fuel' - 1, by omega⟩
    have hagree := hread h
    generalize hx : read ts = x at hagree
    generalize hy : read' ts' = y at hagree
    cases hagree with
    | @both s s' rest rest' hrest =>
      cases hrest with
      | ended => rw [statements_other hx nofun, statements_other hy nofun]; exact .rejected
      | parted => exact statements_beyond hsound hprecise hx (beyond_parted rest) hfuel
      | @step _ t u _ _ hk hrest =>
        obtain ⟨l', q'⟩ := u
        cases statementEnd (.ok (s, t :: _)) with
        | semi =>
          cases l' <;> cases hk
          obtain ⟨us, _, rfl, _⟩ := hsound hx
          obtain ⟨us', _, rfl, _⟩ := hsound' hy
          simp only [List.length_append, List.length_cons] at hfuel hfuel'
          rw [statements_semi hx, statements_semi hy]
          exact (ih hrest (by omega) (by omega)).map _ _
        | last =>
          cases l' <;> cases hk
          rw [statements_last hx, statements_last hy]
          exact .both hrest
        | other hother =>
          rw [statements_other hx hother, statements_other hy]
          · exact .rejected
          · intro v hv
            cases hv
            obtain ⟨hsemi, hlast⟩ := hother t rfl
            constructor
            · rintro rfl
              exact hsemi (Lexeme.eq_of_kind_eq hk.symm nofun nofun)
            · rintro rfl
              exact hlast (Lexeme.eq_of_kind_eq hk.symm nofun nofun)
    | rejected => rw [statements_failed hx, statements_failed hy]; exact .rejected
    | deeper hc => rw [statements_failed hx]; exact .deeper hc
    | beyond hrest => exact statements_beyond hsound hprecise hx hrest hfuel
    | beyondError hrest he => rw [statements_failed hx]; exact .beyondError hrest he

theorem body_inStep (hread : r.InStep after c read read') (hsound : SoundStatement r room read)
    (hprecise : r.Precise .statement room read) (hsound' : SoundStatement r' room' read') :
    r.InStep after c (r.body read) (r'.body read') := fun _ _ h =>
  statements_inStep hread hsound hprecise hsound' h (Nat.lt_succ_self _) (Nat.lt_succ_self _)

end

theorem statement_inStep (r r' : Reader) (after : Option (List Token)) (c : Nat) :
    ∀ room : Nat, r.InStep after c (r.statement room) (r'.statement (room + c)) := by
  intro room
  induction room using Nat.strongRecOn with
  | ind room ih =>
    intro ts ts' h
    cases h with
    | ended => rw [statement_nil, statement_nil]; exact .both .ended
    | parted =>
      exact agree_of_beyond (beyond_parted ts) (SoundStatement.suffix (statement_sound r room))
        fun h => (statement_precise r room h).concerns
    | @step _ t u ts us hk h =>
      cases statementHead room (t :: ts) with
      | @block room p rest =>
        obtain ⟨l, q⟩ := u
        cases l <;> cases hk
        rw [Nat.add_right_comm, statement_block, statement_block]
        exact (body_inStep (ih room (by omega)) (statement_sound r room) (statement_precise r room)
          (statement_sound r' (room + c)) h).map _ _
      | full =>
        obtain ⟨l, q⟩ := u
        cases l <;> cases hk
        rw [statement_full]
        refine agree_tooDeep ?_
        rintro rfl
        exact ⟨_, statement_full⟩
      | name =>
        obtain ⟨l, q⟩ := u
        cases l <;> cases hk
        rw [statement_name, statement_name]
        exact assignment_inStep _ _ _ _ _ h
      | other hb hi =>
        rw [statement_other hb hi, statement_other (hk ▸ hb) (hk ▸ hi)]
        exact .both (.step hk h)

/-! ## Whole texts -/

/-- The error `e` of a reader, where another with the limit `limit` accepts, is for want of room or
lies beyond what their lists share. -/
def Excused (r : Reader) (limit : Nat) (after : Option (List Token)) (e : Rejection) : Prop :=
  (r.limit < limit ∧ ∃ t, e = r.tooDeep t) ∨ ∃ rest, Beyond after rest ∧ r.Concerns e rest

theorem finish_lockstep {α : Type} {a b b' : α} {ts ts' : List Token} {e : Rejection}
    (hts : Alike after ts ts') (hend : after = none → ∃ q, r.stop = .eof q)
    (h : r.finish a ts = .error e) (hok : r'.finish b ts' = .ok b') :
    r.Excused r'.limit after e := by
  cases hts with
  | ended =>
    obtain ⟨q, hq⟩ := hend rfl
    simp [finish, hq] at h
  | parted => exact .inr ⟨ts, beyond_parted ts, .inl ⟨_, finish_error h⟩⟩
  | step => cases hok

theorem program_lockstep {ts ts' : List Token} {e : Rejection} {p : Program}
    (hts : Alike after ts ts') (hend : after = none → ∃ q, r.stop = .eof q)
    (hlimit : r.limit ≤ r'.limit) (h : r.program ts = .error e) (hok : r'.program ts' = .ok p) :
    r.Excused r'.limit after e := by
  cases hts with
  | ended => cases hok
  | parted =>
    obtain ⟨us, rest, rfl, _, he⟩ := (program_precise h).concerns
    exact .inr ⟨rest, (beyond_parted _).suffix (List.suffix_append us rest), he⟩
  | @step _ t u ts us hk hts =>
    obtain ⟨pos', _, b', q', rest', hu, hy, hfinish'⟩ := program_ok hok
    cases hu
    obtain ⟨l, pos⟩ := t
    cases l <;> cases hk
    obtain ⟨c, hc⟩ : ∃ c, r'.limit - 1 = r.limit - 1 + c :=
      Nat.exists_eq_add_of_le (Nat.sub_le_sub_right hlimit 1)
    have hbody := body_inStep (statement_inStep r r' after c (r.limit - 1)) (statement_sound r _)
      (statement_precise r _) (statement_sound r' _) hts
    rw [← hc, hy] at hbody
    rcases program_error h with hx | ⟨b, rest, hx, hrest⟩
    · rw [hx] at hbody
      cases hbody with
      | deeper hpos => exact .inl ⟨by omega, _, rfl⟩
      | beyondError hrest he => exact .inr ⟨_, hrest, he⟩
    · rw [hx] at hbody
      rcases hrest with ⟨q, rest, rfl, hfinish⟩ | ⟨hdot, rfl⟩
      · have hbeyond : Beyond after (⟨.dot, q⟩ :: rest) → r.Excused r'.limit after e := fun hrest =>
          .inr ⟨rest, hrest.suffix (List.suffix_cons _ rest), .inl ⟨_, finish_error hfinish⟩⟩
        cases hbody with
        | both hrest =>
          cases hrest with
          | parted => exact hbeyond (beyond_parted _)
          | step _ hrest => exact finish_lockstep hrest hend hfinish hfinish'
        | beyond hrest => exact hbeyond hrest
      · cases hbody with
        | both hrest =>
          cases hrest with
          | parted => exact .inr ⟨_, beyond_parted _, .inl ⟨_, rfl⟩⟩
          | step hk _ => exact absurd (Lexeme.eq_of_kind_eq hk.symm nofun nofun) (hdot _ rfl)
        | beyond hrest => exact .inr ⟨_, hrest, .inl ⟨_, rfl⟩⟩

/-- A program that more tokens can complete was left only for want of tokens. -/
theorem program_atEnd {ts more : List Token} {e : Rejection} {p : Program}
    (h : r.program ts = .error e) (hmore : r'.program (ts ++ more) = .ok p)
    (hlimit : r.limit = r'.limit) : ∃ kinds, e = r.unexpected kinds [] := by
  have hts : Alike (some []) (ts ++ []) (ts ++ more) := Alike.parted.append ts
  rw [List.append_nil] at hts
  rcases program_lockstep hts nofun (Nat.le_of_eq hlimit) h hmore with
    ⟨hlt, _⟩ | ⟨rest, ⟨vs, hvs, hrest⟩, he⟩
  · omega
  · cases hvs
    obtain rfl := List.suffix_nil.1 hrest
    rcases he with he | ⟨_, _, hnil, _⟩
    · exact he
    · cases hnil

theorem loneExpression_lockstep {ts ts' : List Token} {e : Rejection} {x : Expr}
    (hts : Alike after ts ts') (hend : after = none → ∃ q, r.stop = .eof q)
    (hlimit : r.limit ≤ r'.limit) (h : r.loneExpression ts = .error e)
    (hok : r'.loneExpression ts' = .ok x) : r.Excused r'.limit after e := by
  obtain ⟨c, hc⟩ := Nat.exists_eq_add_of_le hlimit
  have hexpr := expression_inStep r r' after c r.limit hts
  rw [← hc] at hexpr
  unfold loneExpression at h hok
  generalize hy : r'.expression r'.limit ts' = y at hexpr hok
  generalize hx : r.expression r.limit ts = z at hexpr h
  cases hexpr with
  | both hrest => exact finish_lockstep hrest hend h hok
  | rejected => cases hok
  | deeper hpos => cases h; exact .inl ⟨by omega, _, rfl⟩
  | beyond hrest => exact .inr ⟨_, hrest, .inl ⟨_, finish_error h⟩⟩
  | beyondError hrest he => cases h; exact .inr ⟨_, hrest, he⟩

end Reader
end BlockCalc
