import BlockCalc.Proofs.GlyphClass
import BlockCalc.Proofs.Places

/-!
# BlockCalc.Proofs.Spelling

How lexemes are written, and what one step of scanning makes of a text: `Cursor.step_token_iff`,
`Cursor.step_eof_iff` and `Cursor.step_fault_iff` say everything that a step can do.
-/

namespace BlockCalc

/-- The glyphs a lexeme is written with. -/
def Lexeme.glyphs (l : Lexeme) : Text := Text.ofString l.literal

/-- A letter, then letters and digits. -/
def IsWord (t : Text) : Prop :=
  ∃ g rest, t = g :: rest ∧ g.isLetter = true ∧ ∀ h ∈ rest, h.isWordPart = true

/-- One or more ASCII digits. -/
def IsNumeral (t : Text) : Prop := t ≠ [] ∧ ∀ g ∈ t, g.isAsciiDigit = true

/-- A word that is no keyword. -/
def IsName (x : String) : Prop := IsWord (Text.ofString x) ∧ x ≠ "BEGIN" ∧ x ≠ "END"

/-- The lexemes that can be written. -/
def Lexeme.Proper : Lexeme → Prop
  | .integer digits v =>
    IsNumeral (Text.ofString digits) ∧ decimal (Text.ofString digits) < 0x8000000000000000 ∧
      v = Int64.ofNat (decimal (Text.ofString digits))
  | .ident x => IsName x
  | _ => True

/-- The glyphs that a lexeme takes in when they stand right after it. -/
def Lexeme.goesOn : Lexeme → Glyph → Bool
  | .integer _ _ => Glyph.isAsciiDigit
  | .ident _ => Glyph.isWordPart
  | .beginWord => Glyph.isWordPart
  | .endWord => Glyph.isWordPart
  | _ => fun _ => false

/-- The text `t` can stand right after `l`. -/
def Lexeme.Breaks (l : Lexeme) (t : Text) : Prop := Text.StopsAt l.goesOn t

def Blanks (t : Text) : Prop := ∀ g ∈ t, g.isBlank = true

namespace Text

theorem toString_ofString (s : String) : toString (ofString s) = s := by
  simp only [toString, ofString, List.map_map]
  calc String.ofList (s.toList.map (Glyph.shown ∘ Glyph.char))
      = String.ofList (s.toList.map id) := rfl
    _ = s := by rw [List.map_id, String.ofList_toList]

@[simp] theorem ofString_append (s t : String) : ofString (s ++ t) = ofString s ++ ofString t := by
  simp [ofString]

end Text

theorem decimal_ofString (s : String) :
    decimal (Text.ofString s) = Nat.ofDigitChars 10 s.toList 0 := by
  simp [decimal, Text.ofString, Nat.ofDigitChars, List.foldl_map, Glyph.code, Glyph.shown,
    Nat.mul_comm]

theorem IsWord.isWordPart {t : Text} (h : IsWord t) : ∀ g ∈ t, g.isWordPart = true := by
  obtain ⟨g, rest, rfl, hg, hrest⟩ := h
  intro h hh
  rcases List.mem_cons.1 hh with rfl | hh
  · exact Glyph.isWordPart_of_isLetter hg
  · exact hrest h hh

theorem isWord_beginWord : IsWord (Text.ofString "BEGIN") :=
  ⟨.char 'B', Text.ofString "EGIN", by decide, by decide, by decide⟩

theorem isWord_endWord : IsWord (Text.ofString "END") :=
  ⟨.char 'E', Text.ofString "ND", by decide, by decide, by decide⟩

/-! ## The lexeme at a cursor -/

theorem Lexeme.ofGlyph?_of_isWordPart {g : Glyph} (h : g.isWordPart = true) :
    Lexeme.ofGlyph? g = none := by
  unfold ofGlyph?
  split <;> first | rfl | (exfalso; revert h; decide)

theorem Glyph.ne_colon_of_isWordPart {g : Glyph} (h : g.isWordPart = true) :
    g ≠ .char ':' := by
  rintro rfl; revert h; decide

namespace Cursor

theorem lexeme_of_isAsciiDigit {g : Glyph} {rest : Text} {p : Position}
    (h : g.isAsciiDigit = true) : lexeme ⟨g :: rest, p⟩ = integer ⟨g :: rest, p⟩ := by
  have hpart := Glyph.isWordPart_of_isAsciiDigit h
  simp [lexeme, Lexeme.ofGlyph?_of_isWordPart hpart, Glyph.ne_colon_of_isWordPart hpart, h]

theorem lexeme_of_isLetter {g : Glyph} {rest : Text} {p : Position} (h : g.isLetter = true) :
    lexeme ⟨g :: rest, p⟩ = word ⟨g :: rest, p⟩ := by
  have hpart := Glyph.isWordPart_of_isLetter h
  have hdigit := Glyph.not_isAsciiDigit_of_isLetter h
  simp [lexeme, Lexeme.ofGlyph?_of_isWordPart hpart, Glyph.ne_colon_of_isWordPart hpart, hdigit, h]

theorem lexeme_word {run rest : Text} (p : Position) (hrun : IsWord run)
    (hrest : Text.StopsAt Glyph.isWordPart rest) :
    lexeme ⟨run ++ rest, p⟩ =
      .token ⟨.ofWord (Text.toString run), p⟩ ⟨rest, p.past run⟩ := by
  have hword : lexeme ⟨run ++ rest, p⟩ = word ⟨run ++ rest, p⟩ := by
    obtain ⟨g, tail, rfl, hg, _⟩ := hrun
    exact lexeme_of_isLetter hg
  simp only [hword, word, move, Text.takeWhile_run hrun.isWordPart hrest,
    Text.dropWhile_run hrun.isWordPart hrest]

theorem lexeme_numeral {run rest : Text} (p : Position) (hrun : IsNumeral run)
    (hrest : Text.StopsAt Glyph.isAsciiDigit rest) :
    lexeme ⟨run ++ rest, p⟩ =
      if decimal run < 0x8000000000000000 then
        .token ⟨.integer (Text.toString run) (Int64.ofNat (decimal run)), p⟩ ⟨rest, p.past run⟩
      else .stop (.fault ⟨p, .tooLarge (Text.toString run)⟩) := by
  obtain ⟨hne, hdigits⟩ := hrun
  have hint : lexeme ⟨run ++ rest, p⟩ = integer ⟨run ++ rest, p⟩ := by
    obtain ⟨g, tail, rfl⟩ := List.exists_cons_of_ne_nil hne
    exact lexeme_of_isAsciiDigit (hdigits g List.mem_cons_self)
  simp only [hint, integer, move, Text.takeWhile_run hdigits hrest,
    Text.dropWhile_run hdigits hrest]

/-- A proper lexeme that the rest of the text breaks off is read. -/
theorem lexeme_glyphs {l : Lexeme} {rest : Text} (p : Position) (hl : l.Proper)
    (hrest : l.Breaks rest) :
    lexeme ⟨l.glyphs ++ rest, p⟩ = .token ⟨l, p⟩ ⟨rest, p.past l.glyphs⟩ := by
  cases l with
  | integer digits v =>
    obtain ⟨hdigits, hlt, rfl⟩ := hl
    have := lexeme_numeral p hdigits hrest
    simp only [hlt, if_true, Text.toString_ofString] at this
    exact this
  | ident x =>
    obtain ⟨hx, hb, he⟩ := hl
    have := lexeme_word p hx hrest
    simp only [Text.toString_ofString, Lexeme.ofWord, hb, he, if_false] at this
    exact this
  | beginWord => exact lexeme_word p isWord_beginWord hrest
  | endWord => exact lexeme_word p isWord_endWord hrest
  | _ => rfl

/-- What stands in front of a cursor at which there is no token. -/
inductive NoToken : Text → LexCause → Prop where
  | unexpected {g : Glyph} {rest : Text} : Lexeme.ofGlyph? g = none → g ≠ .char ':' →
      g.isAsciiDigit = false → g.isLetter = false → NoToken (g :: rest) (.unexpected g)
  | loneColon {rest : Text} : Text.StopsAt (· == .char '=') rest →
      NoToken (.char ':' :: rest) .loneColon
  | tooLarge {run rest : Text} : IsNumeral run → Text.StopsAt Glyph.isAsciiDigit rest →
      0x8000000000000000 ≤ decimal run → NoToken (run ++ rest) (.tooLarge (Text.toString run))

theorem NoToken.lexeme {t : Text} {cause : LexCause} (h : NoToken t cause) (p : Position) :
    lexeme ⟨t, p⟩ = .stop (.fault ⟨p, cause⟩) := by
  cases h with
  | unexpected hsym hcolon hdigit hletter => simp [Cursor.lexeme, hsym, hcolon, hdigit, hletter]
  | @loneColon rest hrest =>
    cases rest with
    | nil => rfl
    | cons g rest =>
      have hg : g ≠ .char '=' := by simpa using hrest g rfl
      simp [Cursor.lexeme, Lexeme.ofGlyph?, hg]
  | tooLarge hrun hrest hlarge =>
    rw [lexeme_numeral p hrun hrest, if_neg (by omega)]

end Cursor

theorem Lexeme.glyphs_of_ofGlyph? {g : Glyph} {l : Lexeme} (h : Lexeme.ofGlyph? g = some l) :
    l.glyphs = [g] ∧ l.Proper ∧ ∀ rest, l.Breaks rest := by
  unfold ofGlyph? at h
  split at h <;> cases h <;> exact ⟨by decide, trivial, fun rest g _ => rfl⟩

theorem Lexeme.glyphs_ofWord {t : Text} (h : IsWord t) :
    (Lexeme.ofWord (Text.toString t)).glyphs = t ∧ (Lexeme.ofWord (Text.toString t)).Proper ∧
      (Lexeme.ofWord (Text.toString t)).goesOn = Glyph.isWordPart := by
  have ht : Text.ofString (Text.toString t) = t := Text.ofString_toString h.isWordPart
  unfold ofWord
  split
  · rename_i hb
    exact ⟨by rw [← ht, hb]; rfl, trivial, rfl⟩
  · split
    · rename_i he
      exact ⟨by rw [← ht, he]; rfl, trivial, rfl⟩
    · rename_i hb he
      exact ⟨ht, ⟨by rwa [ht], hb, he⟩, rfl⟩

/-- A text is empty, begins with a lexeme, or begins with what is no token. -/
inductive Beginning : Text → Prop where
  | nil : Beginning []
  | lexeme {l : Lexeme} {rest : Text} : l.Proper → l.Breaks rest → Beginning (l.glyphs ++ rest)
  | fault {t : Text} {cause : LexCause} : Cursor.NoToken t cause → Beginning t

theorem beginning_colon (rest : Text) : Beginning (.char ':' :: rest) := by
  cases rest with
  | nil => exact .fault (.loneColon (Text.stopsAt_nil _))
  | cons g rest =>
    by_cases hg : g = .char '='
    · subst hg
      exact .lexeme (l := .assign) trivial fun _ _ => rfl
    · refine .fault (.loneColon fun h hh => ?_)
      cases hh
      simpa using hg

theorem beginning_numeral {g : Glyph} (rest : Text) (hg : g.isAsciiDigit = true) :
    Beginning (g :: rest) := by
  have hrun : IsNumeral ((g :: rest).takeWhile Glyph.isAsciiDigit) :=
    ⟨by simp [hg], List.all_eq_true.1 List.all_takeWhile⟩
  have hrest := Text.stopsAt_dropWhile Glyph.isAsciiDigit (g :: rest)
  rw [← List.takeWhile_append_dropWhile (p := Glyph.isAsciiDigit) (l := g :: rest)]
  have hstring := Text.ofString_toString fun h hh =>
    Glyph.isWordPart_of_isAsciiDigit (hrun.2 h hh)
  by_cases hlt : decimal ((g :: rest).takeWhile Glyph.isAsciiDigit) < 0x8000000000000000
  · have hproper : (Lexeme.integer (Text.toString ((g :: rest).takeWhile Glyph.isAsciiDigit))
        (Int64.ofNat (decimal ((g :: rest).takeWhile Glyph.isAsciiDigit)))).Proper := by
      simp only [Lexeme.Proper, hstring, and_true]
      exact ⟨hrun, hlt⟩
    have := Beginning.lexeme hproper hrest
    rwa [Lexeme.glyphs, Lexeme.literal, hstring] at this
  · exact .fault (.tooLarge hrun hrest (Nat.le_of_not_lt hlt))

theorem beginning_word {g : Glyph} (rest : Text) (hg : g.isLetter = true) :
    Beginning (g :: rest) := by
  have hpart := Glyph.isWordPart_of_isLetter hg
  have hrun : IsWord ((g :: rest).takeWhile Glyph.isWordPart) :=
    ⟨g, rest.takeWhile Glyph.isWordPart, by simp [hpart], hg,
      List.all_eq_true.1 List.all_takeWhile⟩
  obtain ⟨hglyphs, hproper, hgoes⟩ := Lexeme.glyphs_ofWord hrun
  have hrest := Text.stopsAt_dropWhile Glyph.isWordPart (g :: rest)
  rw [← hgoes] at hrest
  have := Beginning.lexeme hproper hrest
  rwa [hglyphs, hgoes, List.takeWhile_append_dropWhile] at this

theorem beginning (t : Text) : Beginning t := by
  cases t with
  | nil => exact .nil
  | cons g rest =>
    cases hsym : Lexeme.ofGlyph? g with
    | some l =>
      obtain ⟨hl, hproper, hbreaks⟩ := Lexeme.glyphs_of_ofGlyph? hsym
      have := Beginning.lexeme hproper (hbreaks rest)
      rwa [hl] at this
    | none =>
      by_cases hcolon : g = .char ':'
      · subst hcolon; exact beginning_colon rest
      cases hdigit : g.isAsciiDigit with
      | true => exact beginning_numeral rest hdigit
      | false =>
        cases hletter : g.isLetter with
        | true => exact beginning_word rest hletter
        | false => exact .fault (.unexpected hsym hcolon hdigit hletter)

/-! ## One step of scanning -/

theorem IsNumeral.stopsAt_blank {run : Text} (h : IsNumeral run) (rest : Text) :
    Text.StopsAt Glyph.isBlank (run ++ rest) := by
  obtain ⟨hne, hdigits⟩ := h
  obtain ⟨g, tail, rfl⟩ := List.exists_cons_of_ne_nil hne
  intro g' hg'
  cases hg'
  exact Glyph.not_isBlank_of_isAsciiDigit (hdigits g List.mem_cons_self)

theorem Lexeme.Proper.stopsAt_blank {l : Lexeme} (h : l.Proper) (rest : Text) :
    Text.StopsAt Glyph.isBlank (l.glyphs ++ rest) := by
  cases l with
  | integer digits v => exact h.1.stopsAt_blank rest
  | ident x =>
    obtain ⟨⟨g, tail, hg, hletter, _⟩, _⟩ := h
    intro g' hg'
    simp only [glyphs, literal, hg, List.cons_append, List.head?_cons, Option.mem_some_iff] at hg'
    subst hg'
    exact Glyph.not_isBlank_of_isLetter hletter
  | _ => intro g hg; cases hg; decide

namespace Cursor

theorem lexeme_token_iff {c after : Cursor} {t : Token} :
    c.lexeme = .token t after ↔
      c.rest = t.lexeme.glyphs ++ after.rest ∧ t.lexeme.Proper ∧ t.lexeme.Breaks after.rest ∧
        t.pos = c.pos ∧ after.pos = c.pos.past t.lexeme.glyphs := by
  obtain ⟨rest, p⟩ := c
  constructor
  · intro h
    cases beginning rest with
    | nil => cases h
    | lexeme hl hbreaks =>
      rw [lexeme_glyphs p hl hbreaks] at h
      cases h
      exact ⟨rfl, hl, hbreaks, rfl, rfl⟩
    | fault hno => rw [hno.lexeme] at h; cases h
  · obtain ⟨l, q⟩ := t
    obtain ⟨rest', p'⟩ := after
    rintro ⟨hrest, hl, hbreaks, hpos, hafter⟩
    simp only at hrest hl hbreaks hpos hafter
    subst hrest hpos hafter
    exact lexeme_glyphs q hl hbreaks

theorem lexeme_fault_iff {c : Cursor} {e : LexError} :
    c.lexeme = .stop (.fault e) ↔ NoToken c.rest e.cause ∧ e.pos = c.pos := by
  obtain ⟨rest, p⟩ := c
  constructor
  · intro h
    cases beginning rest with
    | nil => cases h
    | lexeme hl hbreaks => rw [lexeme_glyphs p hl hbreaks] at h; cases h
    | fault hno => rw [hno.lexeme] at h; cases h; exact ⟨hno, rfl⟩
  · obtain ⟨q, cause⟩ := e
    rintro ⟨hno, rfl⟩
    exact hno.lexeme q

theorem lexeme_eof_iff {c : Cursor} {q : Position} :
    c.lexeme = .stop (.eof q) ↔ c.rest = [] ∧ q = c.pos := by
  obtain ⟨rest, p⟩ := c
  constructor
  · intro h
    cases beginning rest with
    | nil => cases h; exact ⟨rfl, rfl⟩
    | lexeme hl hbreaks => rw [lexeme_glyphs p hl hbreaks] at h; cases h
    | fault hno => rw [hno.lexeme] at h; cases h
  · rintro ⟨rfl, rfl⟩
    rfl

/-- The blanks in front of a cursor are skipped, and no more than the blanks. -/
theorem skipBlanks_iff {c after : Cursor} :
    c.skipBlanks = after ↔ ∃ w, Blanks w ∧ c.rest = w ++ after.rest ∧
      Text.StopsAt Glyph.isBlank after.rest ∧ after.pos = c.pos.past w := by
  constructor
  · rintro rfl
    exact ⟨_, List.all_eq_true.1 List.all_takeWhile, List.takeWhile_append_dropWhile.symm,
      Text.stopsAt_dropWhile _ _, rfl⟩
  · obtain ⟨rest, p⟩ := c
    obtain ⟨rest', p'⟩ := after
    rintro ⟨w, hw, hrest, hstop, hpos⟩
    simp only at hrest hstop hpos
    subst hrest hpos
    simp only [skipBlanks, move, Text.takeWhile_run hw hstop, Text.dropWhile_run hw hstop]

theorem step_token_iff {c after : Cursor} {t : Token} :
    c.step = .token t after ↔ ∃ w, Blanks w ∧ c.rest = w ++ (t.lexeme.glyphs ++ after.rest) ∧
      t.lexeme.Proper ∧ t.lexeme.Breaks after.rest ∧ t.pos = c.pos.past w ∧
        after.pos = t.pos.past t.lexeme.glyphs := by
  constructor
  · intro h
    obtain ⟨hrest, hl, hbreaks, hpos, hafter⟩ := lexeme_token_iff.1 h
    obtain ⟨w, hw, hc, _, hp⟩ := skipBlanks_iff.1 (rfl : c.skipBlanks = c.skipBlanks)
    rw [hrest] at hc
    rw [hp] at hpos
    exact ⟨w, hw, hc, hl, hbreaks, hpos, by rw [hafter, hp, hpos]⟩
  · rintro ⟨w, hw, hc, hl, hbreaks, hpos, hafter⟩
    have hskip : c.skipBlanks = ⟨t.lexeme.glyphs ++ after.rest, c.pos.past w⟩ :=
      skipBlanks_iff.2 ⟨w, hw, hc, hl.stopsAt_blank _, rfl⟩
    rw [step, hskip]
    exact lexeme_token_iff.2 ⟨rfl, hl, hbreaks, hpos, by rw [hafter, hpos]⟩

theorem step_fault_iff {c : Cursor} {e : LexError} :
    c.step = .stop (.fault e) ↔ ∃ w rest, Blanks w ∧ c.rest = w ++ rest ∧
      Text.StopsAt Glyph.isBlank rest ∧ NoToken rest e.cause ∧ e.pos = c.pos.past w := by
  constructor
  · intro h
    obtain ⟨hno, hpos⟩ := lexeme_fault_iff.1 h
    obtain ⟨w, hw, hc, hstop, hp⟩ := skipBlanks_iff.1 (rfl : c.skipBlanks = c.skipBlanks)
    exact ⟨w, _, hw, hc, hstop, hno, by rw [hpos, hp]⟩
  · rintro ⟨w, rest, hw, hc, hstop, hno, hpos⟩
    have hskip : c.skipBlanks = ⟨rest, c.pos.past w⟩ :=
      skipBlanks_iff.2 ⟨w, hw, hc, hstop, rfl⟩
    rw [step, hskip]
    exact lexeme_fault_iff.2 ⟨hno, hpos⟩

theorem step_eof_iff {c : Cursor} {q : Position} :
    c.step = .stop (.eof q) ↔ Blanks c.rest ∧ q = c.pos.past c.rest := by
  constructor
  · intro h
    obtain ⟨hnil, hq⟩ := lexeme_eof_iff.1 h
    obtain ⟨w, hw, hc, _, hp⟩ := skipBlanks_iff.1 (rfl : c.skipBlanks = c.skipBlanks)
    rw [hnil, List.append_nil] at hc
    rw [hc]
    exact ⟨hw, by rw [hq, hp]⟩
  · rintro ⟨hw, hq⟩
    have hskip : c.skipBlanks = ⟨[], c.pos.past c.rest⟩ :=
      skipBlanks_iff.2 ⟨c.rest, hw, by simp, Text.stopsAt_nil _, rfl⟩
    rw [step, hskip]
    exact lexeme_eof_iff.2 ⟨rfl, hq⟩

end Cursor
end BlockCalc
