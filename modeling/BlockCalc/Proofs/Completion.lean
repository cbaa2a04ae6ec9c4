import BlockCalc.Session
import BlockCalc.Proofs.Acceptance
import BlockCalc.Proofs.Bytes
import BlockCalc.Proofs.Lookahead
import BlockCalc.Proofs.Scanning

/-!
# BlockCalc.Proofs.Completion

More lines are asked for exactly where they can still make a program of what has been entered.

One half is that a reader which has run out of tokens can be given some that satisfy it
(`Program.exists_completion`); the other, that nothing after an entry undoes an error in it
(`Program.rejected_at_end`). Both are about whole texts: a newline ends the last token of the entry
and keeps its bytes apart from those that follow.
-/

namespace BlockCalc

open Grammar

theorem isBlank_newline : Text.newline.isBlank = true := by decide

theorem detectMode_eq_program {t : Text} :
    detectMode t = .program ↔ ∃ p ts, (Scan.ofText t).tokens = ⟨.beginWord, p⟩ :: ts := by
  unfold detectMode Scan.ofText
  cases h : (Cursor.ofText t).step with
  | stop s => simp [Cursor.scan_stop h]
  | token u after =>
    obtain ⟨l, p⟩ := u
    rw [Cursor.scan_token h]
    cases l <;> simp

/-! ## More text on the next line -/

theorem Program.parse_append_fault {t : Text} {e : LexError} (h : (Scan.ofText t).stop = .fault e)
    (limit : Nat) (more : Text) :
    Program.parse limit (t ++ Text.newline :: more) = Program.parse limit t :=
  congrArg (fun s : Scan => Reader.program ⟨s.stop, limit⟩ s.tokens)
    (Cursor.scan_append_fault isBlank_newline more (Cursor.ofText t) h)

theorem Program.parse_append_eof {t : Text} {q : Position} (h : (Scan.ofText t).stop = .eof q)
    (limit : Nat) (more : Text) :
    let s := Cursor.scan ⟨more, q.after Text.newline⟩
    Program.parse limit (t ++ Text.newline :: more) =
      Reader.program ⟨s.stop, limit⟩ ((Scan.ofText t).tokens ++ s.tokens) :=
  congrArg (fun s : Scan => Reader.program ⟨s.stop, limit⟩ s.tokens)
    (Cursor.scan_append_eof isBlank_newline more (Cursor.ofText t) h)

/-! ## Completing an entry -/

theorem one_proper : (Lexeme.integer "1" 1).Proper :=
  ⟨by unfold IsNumeral; decide, by decide, by decide⟩

theorem completing_proper {l : Lexeme} (h : l ∈ completing) : l.Proper := by
  simp only [completing, List.mem_cons, List.not_mem_nil, or_false] at h
  rcases h with rfl | rfl | h
  · exact one_proper
  · exact ⟨⟨.char 'x', [], by decide, by decide, nofun⟩, by decide, by decide⟩
  · rcases h with rfl | rfl | rfl | rfl | rfl | rfl | rfl | rfl | rfl | rfl | rfl <;> trivial

theorem Grammar.Completing.proper {ts : List Token} (h : Completing ts) :
    ∀ l ∈ lexemes ts, l.Proper :=
  fun l hl => completing_proper (h l hl)

/-- Whatever is made of proper lexemes can be written, with each on a line of its own. -/
theorem exists_spells {ls : List Lexeme} (h : ∀ l ∈ ls, l.Proper) :
    ∃ bs : List UInt8, Spells (Text.ofBytes bs) ls := by
  induction ls with
  | nil => exact ⟨[], .nil (by intro g hg; simp [Text.ofBytes] at hg)⟩
  | cons l ls ih =>
    obtain ⟨hl, hls⟩ := List.forall_mem_cons.1 h
    obtain ⟨bs, hbs⟩ := ih hls
    refine ⟨Text.toBytes l.glyphs ++ 10 :: bs, ?_⟩
    rw [ofBytes_newline, Lexeme.glyphs, Text.ofBytes_toBytes_ofString]
    refine .lexeme hl ?_ (hbs.blanks (w := [Text.newline]) ?_)
    · intro g hg
      cases hg
      exact l.goesOn_blank isBlank_newline
    · intro g hg
      cases List.mem_singleton.1 hg
      exact isBlank_newline

/-- What was left for want of tokens can be completed. -/
theorem Program.exists_completion {limit : Nat} {t : Text} {q : Position} {kinds : List TokenKind}
    (h : Program.parse limit t = .error (.parse ⟨q, none, .expected kinds⟩)) :
    ∃ (bs : List UInt8) (p : Program),
      Program.parse limit (t ++ Text.newline :: Text.ofBytes bs) = .ok p := by
  obtain ⟨us, rest, hts, hviable, he⟩ := (Reader.program_precise h).concerns
  match rest, he.isAt with
  | u :: rest, hat => cases hat.2
  | [], hat =>
    obtain ⟨more, n, hmore, hn, p, hd⟩ := hviable
    obtain ⟨bs, hbs⟩ := exists_spells hmore.proper
    obtain ⟨hlexemes, q', hq'⟩ := hbs.scan (q.after Text.newline)
    obtain ⟨p', _, hd'⟩ := hd.relabel ((Scan.ofText t).tokens ++ _) (by
      rw [lexemes_append, hlexemes, hts, List.append_nil, lexemes_append])
    refine ⟨bs, p', ?_⟩
    rw [Program.parse_append_eof hat.1, hq']
    exact (Reader.program_iff rfl).2 ⟨n, hn, hd'⟩

/-! ## Errors that stay -/

/-- What more text can complete was left for want of tokens. -/
theorem Program.rejected_at_end {limit : Nat} {t more : Text} {p : Program}
    (hfail : ∀ p, Program.parse limit t ≠ .ok p)
    (hmore : Program.parse limit (t ++ Text.newline :: more) = .ok p) :
    ∃ q kinds, Program.parse limit t = .error (.parse ⟨q, none, .expected kinds⟩) := by
  cases hstop : (Scan.ofText t).stop with
  | fault e =>
    rw [Program.parse_append_fault hstop] at hmore
    exact absurd hmore (hfail p)
  | eof q =>
    rw [Program.parse_append_eof hstop] at hmore
    cases h : Program.parse limit t with
    | ok p => exact absurd h (hfail p)
    | error e =>
      obtain ⟨kinds, rfl⟩ := Reader.program_atEnd h hmore rfl
      exact ⟨q, kinds, by rw [Reader.unexpected, hstop]⟩

theorem Engine.isIncomplete_iff_atEnd {e : Engine} {t : Text} :
    e.isIncomplete t = true ↔ detectMode t = .program ∧
      ∃ q kinds, e.parse t = .error (.parse ⟨q, none, .expected kinds⟩) := by
  unfold Engine.isIncomplete
  split
  · rename_i hmode hparse; simp [hmode, hparse]
  · rename_i hno
    simp only [Bool.false_eq_true, false_iff]
    rintro ⟨hmode, q, kinds, hparse⟩
    exact hno _ _ hmode hparse

/-- More input is asked for exactly when the entry begins with `BEGIN`, is not accepted as it is,
and some text on the lines after it makes a program of it. -/
theorem Engine.isIncomplete_iff_completable (e : Engine) (src : List UInt8) :
    e.isIncomplete (Text.ofBytes src) = true ↔
      (∃ p ts, (Scan.ofText (Text.ofBytes src)).tokens = ⟨.beginWord, p⟩ :: ts) ∧
      (∀ p, e.parse (Text.ofBytes src) ≠ .ok p) ∧
      ∃ (rest : List UInt8) (p : Program), e.parse (Text.ofBytes (src ++ 10 :: rest)) = .ok p := by
  simp only [Engine.isIncomplete_iff_atEnd, detectMode_eq_program, ofBytes_newline]
  constructor
  · rintro ⟨hbegin, q, kinds, h⟩
    refine ⟨hbegin, fun p hp => ?_, Program.exists_completion h⟩
    rw [h] at hp
    cases hp
  · rintro ⟨hbegin, hfail, rest, p, hp⟩
    exact ⟨hbegin, Program.rejected_at_end hfail hp⟩

end BlockCalc
