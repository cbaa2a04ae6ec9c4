import BlockCalc.Proofs.Spelling

/-!
# BlockCalc.Proofs.Scanning

What the scan of a whole text gives.

`spells_iff`: a text is scanned without a fault exactly when it is a sequence of lexemes with
blanks around them, and the tokens are these lexemes. `Cursor.scan_append_eof` and
`Cursor.scan_append_fault`: text that is put behind a blank does not change the tokens before it.
-/

namespace BlockCalc

/-- The text `t` is the lexemes `ls`, with blanks before, between and after them. -/
inductive Spells : Text → List Lexeme → Prop where
  | nil {w : Text} : Blanks w → Spells w []
  | cons {w rest : Text} {l : Lexeme} {ls : List Lexeme} :
      Blanks w → l.Proper → l.Breaks rest → Spells rest ls →
      Spells (w ++ (l.glyphs ++ rest)) (l :: ls)

namespace Cursor

theorem scan_token {c after : Cursor} {t : Token} (h : c.step = .token t after) :
    c.scan = ⟨t :: after.scan.tokens, after.scan.stop⟩ := by
  rw [scan]
  split
  · rename_i t' after' h'
    rw [h] at h'; cases h'; rfl
  · rename_i s h'
    rw [h] at h'; cases h'

theorem scan_stop {c : Cursor} {s : Stop} (h : c.step = .stop s) : c.scan = ⟨[], s⟩ := by
  rw [scan]
  split
  · rename_i t after h'
    rw [h] at h'; cases h'
  · rename_i s' h'
    rw [h] at h'; cases h'; rfl

/-- What holds where scanning stops, and is handed back over each token, holds everywhere. -/
theorem scan_induction {P : Cursor → Prop}
    (token : ∀ {c after : Cursor} {t : Token}, c.step = .token t after → P after → P c)
    (stop : ∀ {c : Cursor} {s : Stop}, c.step = .stop s → P c) (c : Cursor) : P c := by
  induction hn : c.rest.length using Nat.strongRecOn generalizing c with
  | ind n ih =>
    cases h : c.step with
    | token t after =>
      have := step_shorter h
      exact token h (ih after.rest.length (by omega) after rfl)
    | stop s => exact stop h

theorem spells_scan (c : Cursor) :
    ∀ {q : Position}, c.scan.stop = .eof q → Spells c.rest (lexemes c.scan.tokens) := by
  induction c using scan_induction with
  | token h ih =>
    intro q hq
    obtain ⟨w, hw, hrest, hl, hbreaks, _⟩ := step_token_iff.1 h
    rw [scan_token h] at hq ⊢
    rw [hrest]
    exact .cons hw hl hbreaks (ih hq)
  | stop h =>
    intro q hq
    rw [scan_stop h] at hq ⊢
    cases hq
    exact .nil (step_eof_iff.1 h).1

end Cursor

theorem Spells.scan {t : Text} {ls : List Lexeme} (h : Spells t ls) :
    ∀ p, lexemes (Cursor.scan ⟨t, p⟩).tokens = ls ∧ ∃ q, (Cursor.scan ⟨t, p⟩).stop = .eof q := by
  induction h with
  | @nil w hw =>
    intro p
    have hstep : Cursor.step ⟨w, p⟩ = .stop (.eof (p.past w)) :=
      Cursor.step_eof_iff.2 ⟨hw, rfl⟩
    rw [Cursor.scan_stop hstep]
    exact ⟨rfl, _, rfl⟩
  | @cons w rest l ls hw hl hbreaks _ ih =>
    intro p
    have hstep : Cursor.step ⟨w ++ (l.glyphs ++ rest), p⟩ =
        .token ⟨l, p.past w⟩ ⟨rest, (p.past w).past l.glyphs⟩ :=
      Cursor.step_token_iff.2 ⟨w, hw, rfl, hl, hbreaks, rfl, rfl⟩
    obtain ⟨hlexemes, hstop⟩ := ih ((p.past w).past l.glyphs)
    rw [Cursor.scan_token hstep]
    exact ⟨by rw [lexemes_cons, hlexemes], hstop⟩

theorem spells_iff {t : Text} {ls : List Lexeme} :
    Spells t ls ↔ ∃ ts, Tokenized t ts ∧ lexemes ts = ls := by
  constructor
  · intro h
    obtain ⟨hlexemes, q, hq⟩ := h.scan .start
    exact ⟨_, ⟨q, congrArg (Scan.mk _) hq⟩, hlexemes⟩
  · rintro ⟨ts, ⟨q, hq⟩, rfl⟩
    have hstop : (Cursor.ofText t).scan.stop = .eof q := congrArg Scan.stop hq
    have htokens : (Cursor.ofText t).scan.tokens = ts := congrArg Scan.tokens hq
    have := Cursor.spells_scan (Cursor.ofText t) hstop
    rwa [htokens] at this

theorem Spells.proper {t : Text} {ls : List Lexeme} (h : Spells t ls) : ∀ l ∈ ls, l.Proper := by
  induction h with
  | nil _ => intro l hl; cases hl
  | cons _ hl _ _ ih =>
    intro l' hl'
    rcases List.mem_cons.1 hl' with rfl | hl'
    · exact hl
    · exact ih l' hl'

theorem Cursor.proper_scan (c : Cursor) : ∀ l ∈ lexemes c.scan.tokens, l.Proper := by
  induction c using scan_induction with
  | token h ih =>
    obtain ⟨_, _, _, hl, _⟩ := step_token_iff.1 h
    rw [scan_token h]
    exact List.forall_mem_cons.2 ⟨hl, ih⟩
  | stop h => rw [scan_stop h]; exact nofun

theorem Lexeme.breaks_of_stopsAt (l : Lexeme) {t : Text} (h : Text.StopsAt Glyph.isWordPart t) :
    l.Breaks t := by
  intro g hg
  have hpart := h g hg
  cases l with
  | integer digits v => exact Glyph.not_isAsciiDigit_of_not_isWordPart hpart
  | ident x => exact hpart
  | beginWord => exact hpart
  | endWord => exact hpart
  | _ => rfl

theorem Spells.blanks {w t : Text} {ls : List Lexeme} (hw : Blanks w) (h : Spells t ls) :
    Spells (w ++ t) ls := by
  have happend : ∀ {w' : Text}, Blanks w' → Blanks (w ++ w') := by
    intro w' hw' g hg
    exact (List.mem_append.1 hg).elim (hw g) (hw' g)
  cases h with
  | nil hw' => exact .nil (happend hw')
  | cons hw' hl hbreaks h =>
    rw [← List.append_assoc]
    exact .cons (happend hw') hl hbreaks h

/-- A lexeme in front of a spelling that it cannot take glyphs from. -/
theorem Spells.lexeme {l : Lexeme} {t : Text} {ls : List Lexeme} (hl : l.Proper)
    (hbreaks : l.Breaks t) (h : Spells t ls) : Spells (l.glyphs ++ t) (l :: ls) :=
  .cons (w := []) (by intro g hg; cases hg) hl hbreaks h

/-! ## Text behind a blank -/

theorem Text.StopsAt.append {p : Glyph → Bool} {t : Text} {b : Glyph} (h : StopsAt p t)
    (hb : p b = false) (more : Text) : StopsAt p (t ++ b :: more) := by
  cases t with
  | nil => intro g hg; cases hg; exact hb
  | cons g t => exact h

theorem Text.StopsAt.append_of_ne_nil {p : Glyph → Bool} {t : Text} (h : StopsAt p t) (ht : t ≠ [])
    (more : Text) : StopsAt p (t ++ more) := by
  cases t with
  | nil => exact absurd rfl ht
  | cons g t => exact h

theorem Position.past_append (p : Position) (t u : Text) : p.past (t ++ u) = (p.past t).past u :=
  List.foldl_append

theorem Lexeme.goesOn_blank (l : Lexeme) {b : Glyph} (hb : b.isBlank = true) :
    l.goesOn b = false := by
  have hpart := Glyph.not_isWordPart_of_isBlank hb
  cases l with
  | integer digits v => exact Glyph.not_isAsciiDigit_of_not_isWordPart hpart
  | ident x => exact hpart
  | beginWord => exact hpart
  | endWord => exact hpart
  | _ => rfl

namespace Cursor

theorem NoToken.ne_nil {t : Text} {cause : LexCause} (h : NoToken t cause) : t ≠ [] := by
  cases h with
  | unexpected => simp
  | loneColon => simp
  | tooLarge hrun => simp [hrun.1]

theorem scan_congr {c d : Cursor} (h : c.step = d.step) : c.scan = d.scan := by
  cases hd : d.step with
  | token t after => rw [scan_token hd, scan_token (h.trans hd)]
  | stop s => rw [scan_stop hd, scan_stop (h.trans hd)]

variable {b : Glyph} (hb : b.isBlank = true) (more : Text)

include hb

theorem step_append_token {c after : Cursor} {t : Token} (h : c.step = .token t after) :
    step ⟨c.rest ++ b :: more, c.pos⟩ = .token t ⟨after.rest ++ b :: more, after.pos⟩ := by
  obtain ⟨w, hw, hrest, hl, hbreaks, hpos, hafter⟩ := step_token_iff.1 h
  exact step_token_iff.2 ⟨w, hw, by simp [hrest], hl, hbreaks.append (t.lexeme.goesOn_blank hb) _,
    hpos, hafter⟩

theorem NoToken.append {t : Text} {cause : LexCause} (h : NoToken t cause) :
    NoToken (t ++ b :: more) cause := by
  cases h with
  | unexpected hsym hcolon hdigit hletter => exact .unexpected hsym hcolon hdigit hletter
  | loneColon hrest =>
    refine .loneColon (hrest.append ?_ more)
    rw [beq_eq_false_iff_ne]
    rintro rfl; revert hb; decide
  | tooLarge hrun hrest hlarge =>
    rw [List.append_assoc]
    exact .tooLarge hrun
      (hrest.append ((Lexeme.integer "" 0).goesOn_blank hb) more) hlarge

theorem step_append_fault {c : Cursor} {e : LexError} (h : c.step = .stop (.fault e)) :
    step ⟨c.rest ++ b :: more, c.pos⟩ = .stop (.fault e) := by
  obtain ⟨w, rest, hw, hrest, hstop, hno, hpos⟩ := step_fault_iff.1 h
  exact step_fault_iff.2 ⟨w, rest ++ b :: more, hw, by simp [hrest],
    hstop.append_of_ne_nil hno.ne_nil _, hno.append hb more, hpos⟩

theorem step_append_eof {c : Cursor} {q : Position} (h : c.step = .stop (.eof q)) :
    step ⟨c.rest ++ b :: more, c.pos⟩ = step ⟨more, q.after b⟩ := by
  obtain ⟨hblanks, rfl⟩ := step_eof_iff.1 h
  obtain ⟨w, hw, hrest, hstop, hpos⟩ :=
    skipBlanks_iff.1 (rfl : skipBlanks ⟨more, (c.pos.past c.rest).after b⟩ = _)
  have hskip : skipBlanks ⟨c.rest ++ b :: more, c.pos⟩ =
      skipBlanks ⟨more, (c.pos.past c.rest).after b⟩ := by
    refine skipBlanks_iff.2 ⟨c.rest ++ b :: w, ?_, by simpa using hrest, hstop, ?_⟩
    · intro g hg
      rcases List.mem_append.1 hg with hg | hg
      · exact hblanks g hg
      · rcases List.mem_cons.1 hg with rfl | hg
        · exact hb
        · exact hw g hg
    · rw [hpos, Position.past_append]; rfl
  rw [step, hskip]; rfl

/-- A fault stays where it is, whatever is put behind a blank after it. -/
theorem scan_append_fault (c : Cursor) : ∀ {e : LexError}, c.scan.stop = .fault e →
    scan ⟨c.rest ++ b :: more, c.pos⟩ = c.scan := by
  induction c using scan_induction with
  | token h ih =>
    intro e he
    rw [scan_token h] at he
    rw [scan_token (step_append_token hb more h), ih he, scan_token h]
  | stop h =>
    intro e he
    rw [scan_stop h] at he
    cases he
    rw [scan_stop (step_append_fault hb more h), scan_stop h]

/-- Tokens stay as they are, and what is put behind a blank after them is scanned on its own. -/
theorem scan_append_eof (c : Cursor) : ∀ {q : Position}, c.scan.stop = .eof q →
    scan ⟨c.rest ++ b :: more, c.pos⟩ =
      ⟨c.scan.tokens ++ (scan ⟨more, q.after b⟩).tokens, (scan ⟨more, q.after b⟩).stop⟩ := by
  induction c using scan_induction with
  | token h ih =>
    intro q hq
    rw [scan_token h] at hq
    rw [scan_token (step_append_token hb more h), ih hq, scan_token h]
    rfl
  | stop h =>
    intro q hq
    rw [scan_stop h] at hq
    cases hq
    rw [scan_congr (step_append_eof hb more h), scan_stop h]
    rfl

end Cursor
end BlockCalc
