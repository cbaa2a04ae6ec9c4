import BlockCalc.Token.Scanner

/-!
# BlockCalc.Proofs.GlyphClass

The classes of glyphs that scanning tells apart, and maximal runs of them. Blanks, letters and
digits exclude each other, and no stray byte is a letter or a digit, so a word is made of
characters.
-/

namespace BlockCalc

namespace Intervals

theorem covers_iff {t : Intervals} {n : Nat} :
    t.covers n = true ↔ ∃ r ∈ t, r.1 ≤ n ∧ n ≤ r.2 := by
  simp [covers]

/-- Sets whose intervals lie apart have no member in common. -/
theorem not_covers_of_apart {t u : Intervals} {n : Nat}
    (hapart : ∀ r ∈ t, ∀ s ∈ u, r.2 < s.1 ∨ s.2 < r.1) (hn : t.covers n = true) :
    u.covers n = false := by
  obtain ⟨r, hr, hlo, hhi⟩ := covers_iff.1 hn
  cases hu : u.covers n with
  | false => rfl
  | true =>
    obtain ⟨s, hs, hlo', hhi'⟩ := covers_iff.1 hu
    rcases hapart r hr s hs with h | h <;> omega

end Intervals

theorem blanks_apart_letters :
    ∀ r ∈ Blank.blanks, ∀ s ∈ Letter.letters, r.2 < s.1 ∨ s.2 < r.1 := by decide +kernel

theorem blanks_apart_digits :
    ∀ r ∈ Blank.blanks, ∀ s ∈ Letter.digits, r.2 < s.1 ∨ s.2 < r.1 := by decide +kernel

theorem blanks_low : ∀ r ∈ Blank.blanks, r.2 ≤ 0x20 ∨ 0x80 ≤ r.1 := by decide +kernel

namespace Glyph

/-- What ASCII letters and digits are, and nothing else below U+0080 in a word is. -/
theorem isWordPart_ascii {g : Glyph} (hcode : g.code < 0x80) :
    g.isWordPart = true ↔ (0x41 ≤ g.code ∧ g.code ≤ 0x5A) ∨ (0x61 ≤ g.code ∧ g.code ≤ 0x7A) ∨
      (0x30 ≤ g.code ∧ g.code ≤ 0x39) := by
  simp [isWordPart, isLetter, isDigit, isAsciiDigit, hcode, or_assoc]

theorem not_isWordPart_of_isBlank {g : Glyph} (h : g.isBlank = true) : g.isWordPart = false := by
  unfold isBlank at h
  by_cases hcode : g.code < 0x80
  · cases hw : g.isWordPart with
    | false => rfl
    | true =>
      have := (isWordPart_ascii hcode).1 hw
      obtain ⟨r, hr, hlo, hhi⟩ := Intervals.covers_iff.1 h
      have := blanks_low r hr
      omega
  · have hl := Intervals.not_covers_of_apart blanks_apart_letters h
    have hd := Intervals.not_covers_of_apart blanks_apart_digits h
    simp [isWordPart, isLetter, isDigit, hcode, hl, hd]

theorem isAsciiDigit_iff {g : Glyph} :
    g.isAsciiDigit = true ↔ 0x30 ≤ g.code ∧ g.code ≤ 0x39 := by
  simp [isAsciiDigit]

theorem isWordPart_of_isAsciiDigit {g : Glyph} (h : g.isAsciiDigit = true) :
    g.isWordPart = true := by
  have hcode := isAsciiDigit_iff.1 h
  exact (isWordPart_ascii (by omega)).2 (.inr (.inr hcode))

theorem not_isAsciiDigit_of_not_isWordPart {g : Glyph} (h : g.isWordPart = false) :
    g.isAsciiDigit = false := by
  cases hd : g.isAsciiDigit with
  | false => rfl
  | true => simp [isWordPart_of_isAsciiDigit hd] at h

theorem not_isLetter_of_isAsciiDigit {g : Glyph} (h : g.isAsciiDigit = true) :
    g.isLetter = false := by
  have hcode := isAsciiDigit_iff.1 h
  have hlow : g.code < 0x80 := by omega
  rw [isLetter, if_pos hlow, Bool.eq_false_iff]
  simp only [ne_eq, Bool.or_eq_true, Bool.and_eq_true, decide_eq_true_eq]
  omega

theorem not_isAsciiDigit_of_isLetter {g : Glyph} (h : g.isLetter = true) :
    g.isAsciiDigit = false := by
  cases hd : g.isAsciiDigit with
  | false => rfl
  | true => simp [not_isLetter_of_isAsciiDigit hd] at h

theorem not_isBlank_of_isLetter {g : Glyph} (h : g.isLetter = true) : g.isBlank = false := by
  cases hb : g.isBlank with
  | false => rfl
  | true => simpa [isWordPart, h] using not_isWordPart_of_isBlank hb

theorem not_isBlank_of_isAsciiDigit {g : Glyph} (h : g.isAsciiDigit = true) :
    g.isBlank = false := by
  cases hb : g.isBlank with
  | false => rfl
  | true => simpa [isWordPart_of_isAsciiDigit h] using not_isWordPart_of_isBlank hb

theorem not_isWordPart_stray (b : UInt8) : (Glyph.stray b).isWordPart = false := by
  have hcode : (Glyph.stray b).code = 0xFFFD := rfl
  have hl : Letter.letters.covers 0xFFFD = false := by decide +kernel
  have hd : Letter.digits.covers 0xFFFD = false := by decide +kernel
  simp [isWordPart, isLetter, isDigit, hcode, hl, hd]

/-- A glyph of a word is a character. -/
theorem eq_char_of_isWordPart {g : Glyph} (h : g.isWordPart = true) : g = .char g.shown := by
  cases g with
  | char c => rfl
  | stray b => simp [not_isWordPart_stray] at h

end Glyph

namespace Text

theorem ofString_toString {t : Text} (h : ∀ g ∈ t, g.isWordPart = true) :
    ofString (toString t) = t := by
  simp only [ofString, toString, String.toList_ofList, List.map_map]
  calc t.map (Glyph.char ∘ Glyph.shown)
      = t.map id := List.map_congr_left fun g hg => (Glyph.eq_char_of_isWordPart (h g hg)).symm
    _ = t := List.map_id t

/-- A text that `p` does not go on at. -/
def StopsAt (p : Glyph → Bool) (t : Text) : Prop := ∀ g ∈ t.head?, p g = false

theorem stopsAt_nil (p : Glyph → Bool) : StopsAt p [] := by
  intro g hg; cases hg

theorem stopsAt_dropWhile (p : Glyph → Bool) (t : Text) : StopsAt p (t.dropWhile p) := by
  intro g hg
  have := List.head?_dropWhile_not p t
  rw [Option.mem_def.1 hg] at this
  exact this

theorem takeWhile_run {p : Glyph → Bool} {run rest : Text} (hrun : ∀ g ∈ run, p g = true)
    (hrest : StopsAt p rest) : (run ++ rest).takeWhile p = run := by
  rw [List.takeWhile_append_of_pos hrun]
  cases rest with
  | nil => simp
  | cons g rest => simp [hrest g rfl]

theorem dropWhile_run {p : Glyph → Bool} {run rest : Text} (hrun : ∀ g ∈ run, p g = true)
    (hrest : StopsAt p rest) : (run ++ rest).dropWhile p = rest := by
  rw [List.dropWhile_append_of_pos hrun]
  cases rest with
  | nil => rfl
  | cons g rest => simp [hrest g rfl]

end Text
end BlockCalc
