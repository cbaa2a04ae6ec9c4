import BlockCalc.Proofs.Bytes
import BlockCalc.Proofs.Order

/-!
# BlockCalc.Proofs.Tiling

A source is the literals of its tokens with blanks between them, up to its end or to the character
that no token begins with. Nothing is left out and nothing is used twice, whether the bytes are
UTF-8 or not. Numbers and words are the longest that stand where they begin, and places count
newlines and glyphs in the bytes before.
-/

namespace BlockCalc

/-! ## Places by counting bytes -/

/-- What follows the last newline byte. -/
def lastLine (bs : List UInt8) : List UInt8 := (bs.reverse.takeWhile (· != 10)).reverse

/-- The place after the bytes at the beginning of a source. -/
def Position.afterBytes (bs : List UInt8) : Position :=
  ⟨1 + bs.count 10, 1 + (Text.ofBytes (lastLine bs)).length⟩

theorem lastLine_cases (bs : List UInt8) :
    10 ∉ lastLine bs ∧ (bs = lastLine bs ∨ ∃ before, bs = before ++ 10 :: lastLine bs) := by
  have hsplit : (bs.reverse.dropWhile (· != 10)).reverse ++ lastLine bs = bs := by
    rw [lastLine, ← List.reverse_append, List.takeWhile_append_dropWhile, List.reverse_reverse]
  constructor
  · intro hmem
    have hall := List.all_takeWhile (p := fun b : UInt8 => b != 10) (l := bs.reverse)
    simpa using List.all_eq_true.1 hall 10 (List.mem_reverse.1 hmem)
  · cases hdrop : bs.reverse.dropWhile (· != 10) with
    | nil =>
      rw [hdrop] at hsplit
      exact .inl hsplit.symm
    | cons b rest =>
      have hb := List.head?_dropWhile_not (fun b : UInt8 => b != 10) bs.reverse
      rw [hdrop] at hb
      have hten : b = 10 := by simpa using hb
      rw [hdrop, hten, List.reverse_cons, List.append_assoc] at hsplit
      exact .inr ⟨rest.reverse, hsplit.symm⟩

namespace Text

theorem count_newline_ofBytes (bs : List UInt8) : (ofBytes bs).count newline = bs.count 10 := by
  have hnone : ∀ {bs : List UInt8}, 10 ∉ bs → (ofBytes bs).count newline = bs.count 10 := by
    intro bs h
    rw [List.count_eq_zero.2 h, List.count_eq_zero.2 fun hmem => h (ten_mem_of_newline_mem hmem)]
  induction bs using split_induction (10 : UInt8) with
  | last h => exact hnone h
  | line h ih =>
    simp only [ofBytes_newline, List.count_append, List.count_cons_self, hnone h, ih]

end Text

namespace Position

theorem line_past (p : Position) (t : Text) :
    (p.past t).line = p.line + t.count Text.newline := by
  induction t generalizing p with
  | nil => simp [past]
  | cons g t ih =>
    have hcons : p.past (g :: t) = (p.after g).past t := rfl
    rw [hcons, ih, List.count_cons]
    unfold after
    by_cases hg : g = Text.newline
    · simp only [hg, if_true, beq_self_eq_true]; omega
    · simp [hg]

theorem past_of_no_newline (p : Position) {t : Text} (h : Text.newline ∉ t) :
    p.past t = ⟨p.line, p.column + t.length⟩ := by
  induction t generalizing p with
  | nil => simp [past]
  | cons g t ih =>
    have hcons : p.past (g :: t) = (p.after g).past t := rfl
    have hg : g ≠ Text.newline := fun hg => h (hg ▸ List.mem_cons_self)
    rw [hcons, ih _ fun hmem => h (List.mem_cons_of_mem _ hmem), after, if_neg hg,
      List.length_cons]
    simp only [mk.injEq, true_and]
    omega

/-- Counting newlines and the glyphs after the last of them gives the place that scanning has come
to. -/
theorem past_ofBytes (bs : List UInt8) : start.past (Text.ofBytes bs) = afterBytes bs := by
  obtain ⟨hnone, hsplit⟩ := lastLine_cases bs
  have hlast : Text.newline ∉ Text.ofBytes (lastLine bs) :=
    fun hmem => hnone (Text.ten_mem_of_newline_mem hmem)
  unfold afterBytes
  rcases hsplit with hbs | ⟨before, hbs⟩
  · have hcount : bs.count 10 = 0 := List.count_eq_zero.2 (hbs ▸ hnone)
    rw [hcount, ← hbs, past_of_no_newline _ (hbs ▸ hlast)]
    rfl
  · generalize lastLine bs = line at *
    subst hbs
    have hline := line_past start (Text.ofBytes before)
    rw [Text.count_newline_ofBytes] at hline
    rw [ofBytes_newline, past_append, List.count_append, List.count_cons_self,
      List.count_eq_zero.2 hnone]
    have hcons : ∀ p : Position, p.past (Text.newline :: Text.ofBytes line) =
      (p.after Text.newline).past (Text.ofBytes line) := fun _ => rfl
    rw [hcons, past_of_no_newline _ hlast, after, if_pos rfl, hline]
    simp only [start, mk.injEq, and_true]
    omega

theorem past_of_readable {t : Text} (h : t.Readable) : start.past t = afterBytes t.toBytes := by
  rw [← past_ofBytes, h]

end Position

/-! ## The list of tokens -/

/-- A token as it is listed. The end of a text is listed too, with nothing written for it. -/
structure Listed where
  kind : TokenKind
  literal : String
  value : Int64
  pos : Position
deriving DecidableEq, Repr

def Token.listed (t : Token) : Listed := ⟨t.lexeme.kind, t.lexeme.literal, t.lexeme.value, t.pos⟩

namespace Scan

def listing (s : Scan) : List Listed :=
  s.tokens.map Token.listed ++
    match s.stop with
    | .eof p => [⟨.eof, "", 0, p⟩]
    | .fault _ => []

def error? (s : Scan) : Option LexError :=
  match s.stop with
  | .eof _ => none
  | .fault e => some e

end Scan

theorem Token.kind_listed (t : Token) : t.listed.kind ≠ .eof := by
  obtain ⟨l, p⟩ := t
  cases l <;> nofun

/-! ## Numbers and words as long as they can be -/

namespace Text

/-- The letters and digits that a text ends with, the last of them first. -/
def wordTail (t : Text) : Text := t.reverse.takeWhile Glyph.isWordPart

theorem wordTail_append_blanks {w : Text} (hw : Blanks w) (hne : w ≠ []) (t : Text) :
    wordTail (t ++ w) = [] := by
  obtain ⟨w', b, rfl⟩ := (List.eq_nil_or_concat w).resolve_left hne
  have hb : b.isBlank = true := hw b (by simp)
  simp [wordTail, Glyph.not_isWordPart_of_isBlank hb]

theorem wordTail_append_run {run : Text} (hrun : ∀ g ∈ run, g.isWordPart = true) (t : Text) :
    wordTail (t ++ run) = run.reverse ++ wordTail t := by
  rw [wordTail, List.reverse_append,
    List.takeWhile_append_of_pos fun g hg => hrun g (List.mem_reverse.1 hg), wordTail]

/-- No number or word goes on from `t` into `rest`. -/
def Parted (t rest : Text) : Prop :=
  wordTail t = [] ∨ StopsAt Glyph.isWordPart rest ∨
    (StopsAt Glyph.isAsciiDigit rest ∧ ∀ g ∈ wordTail t, g.isAsciiDigit = true)

namespace Parted

variable {done w rest : Text}

theorem wordTail_before_number {run : Text} (h : Parted done (w ++ (run ++ rest))) (hw : Blanks w)
    (hrun : IsNumeral run) : wordTail (done ++ w) = [] := by
  by_cases hne : w = []
  · subst hne
    obtain ⟨g, run', rfl⟩ := List.exists_cons_of_ne_nil hrun.1
    have hg : g.isAsciiDigit = true := hrun.2 g List.mem_cons_self
    rw [List.append_nil]
    rcases h with h | h | ⟨h, _⟩
    · exact h
    · exact absurd (h g rfl) (by simp [Glyph.isWordPart_of_isAsciiDigit hg])
    · exact absurd (h g rfl) (by simp [hg])
  · exact wordTail_append_blanks hw hne done

theorem wordTail_before_word {run : Text} (h : Parted done (w ++ (run ++ rest))) (hw : Blanks w)
    (hrun : IsWord run) : ∀ g ∈ wordTail (done ++ w), g.isAsciiDigit = true := by
  by_cases hne : w = []
  · subst hne
    obtain ⟨g, run', rfl, hg, _⟩ := hrun
    rw [List.append_nil]
    rcases h with h | h | ⟨_, h⟩
    · rw [h]; nofun
    · exact absurd (h g rfl) (by simp [Glyph.isWordPart_of_isLetter hg])
    · exact h
  · rw [wordTail_append_blanks hw hne done]; nofun

theorem append_token {l : Lexeme} (h : Parted done (w ++ (l.glyphs ++ rest))) (hw : Blanks w)
    (hl : l.Proper) (hbreaks : l.Breaks rest) : Parted (done ++ (w ++ l.glyphs)) rest := by
  rw [← List.append_assoc]
  cases l with
  | integer digits v =>
    have hrun := hl.1
    refine .inr (.inr ⟨hbreaks, ?_⟩)
    rw [Lexeme.glyphs, Lexeme.literal,
      wordTail_append_run fun g hg => Glyph.isWordPart_of_isAsciiDigit (hrun.2 g hg),
      h.wordTail_before_number hw hrun, List.append_nil]
    exact fun g hg => hrun.2 g (List.mem_reverse.1 hg)
  | ident x => exact .inr (.inl hbreaks)
  | beginWord => exact .inr (.inl hbreaks)
  | endWord => exact .inr (.inl hbreaks)
  | _ =>
    left
    rw [wordTail, List.reverse_append]
    exact List.takeWhile_cons_of_neg (by decide)

end Parted
end Text

/-- A token stands between the bytes `before` and `after`: its place is counted in the bytes
before, and no number or word that takes in more of either side contains it. -/
structure Listed.Fits (x : Listed) (before after : List UInt8) : Prop where
  place : x.pos = .afterBytes before
  number : x.kind = .integer → IsNumeral (Text.ofString x.literal) ∧
    Text.wordTail (Text.ofBytes before) = [] ∧
      Text.StopsAt Glyph.isAsciiDigit (Text.ofBytes after)
  word : x.kind ∈ [.ident, .beginWord, .endWord] → IsWord (Text.ofString x.literal) ∧
    (∀ g ∈ Text.wordTail (Text.ofBytes before), g.isAsciiDigit = true) ∧
      Text.StopsAt Glyph.isWordPart (Text.ofBytes after)

theorem Lexeme.Proper.isNumeral {l : Lexeme} (h : l.Proper) (hkind : l.kind = .integer) :
    IsNumeral l.glyphs ∧ l.goesOn = Glyph.isAsciiDigit := by
  cases l with
  | integer digits v => exact ⟨h.1, rfl⟩
  | _ => cases hkind

theorem Lexeme.Proper.isWord {l : Lexeme} (h : l.Proper)
    (hkind : l.kind ∈ [.ident, .beginWord, .endWord]) :
    IsWord l.glyphs ∧ l.goesOn = Glyph.isWordPart := by
  cases l with
  | ident x => exact ⟨h.1, rfl⟩
  | beginWord => exact ⟨isWord_beginWord, rfl⟩
  | endWord => exact ⟨isWord_endWord, rfl⟩
  | _ => exact absurd hkind (by simp [kind])

/-! ## The tiling -/

/-- A token and the bytes that are skipped before it. -/
structure Piece where
  gap : List UInt8
  listed : Listed

def Piece.bytes (x : Piece) : List UInt8 := x.gap ++ Text.toBytes (Text.ofString x.listed.literal)

/-- The bytes `src`, which `done` stands before, are the pieces, then `gap` and `rest`. -/
structure Tiling (done src : List UInt8) (s : Scan) (pieces : List Piece)
    (gap rest : List UInt8) : Prop where
  listing : s.listing = pieces.map Piece.listed
  whole : src = pieces.flatMap Piece.bytes ++ (gap ++ rest)
  blanks : ∀ w ∈ gap :: pieces.map Piece.gap, Blanks (Text.ofBytes w)
  fits : ∀ before x after, pieces = before ++ x :: after →
    x.listed.Fits (done ++ before.flatMap Piece.bytes ++ x.gap)
      (after.flatMap Piece.bytes ++ (gap ++ rest))
  -- With no error all is used, and the end is listed last and nowhere else.
  success : s.error? = none → gap = [] ∧ rest = [] ∧
    ∃ before p, s.listing = before ++ [⟨.eof, "", 0, p⟩] ∧ ∀ x ∈ before, x.kind ≠ .eof
  -- An error is at the first glyph of the rest, and no token begins there.
  fault : ∀ e, s.error? = some e → (∀ x ∈ s.listing, x.kind ≠ .eof) ∧
    e.pos = .afterBytes (done ++ pieces.flatMap Piece.bytes ++ gap) ∧
      (Text.ofBytes rest).head?.map Glyph.code = some e.code ∧
        Cursor.NoToken (Text.ofBytes rest) e.cause

theorem Cursor.NoToken.head_code {t : Text} {e : LexError} (h : NoToken t e.cause) :
    t.head?.map Glyph.code = some e.code := by
  obtain ⟨p, cause⟩ := e
  cases h with
  | unexpected => rfl
  | loneColon => rfl
  | @tooLarge run rest hrun =>
    obtain ⟨g, run', rfl⟩ := List.exists_cons_of_ne_nil hrun.1
    simp [LexError.code, Text.toString, Glyph.code]

namespace Tiling

variable {done src : List UInt8} {s : Scan} {pieces : List Piece} {gap rest : List UInt8}

theorem cons {w : List UInt8} {t : Token} (hw : Blanks (Text.ofBytes w))
    (hfits : t.listed.Fits (done ++ w) src)
    (h : Tiling (done ++ Piece.bytes ⟨w, t.listed⟩) src s pieces gap rest) :
    Tiling done (Piece.bytes ⟨w, t.listed⟩ ++ src) ⟨t :: s.tokens, s.stop⟩
      (⟨w, t.listed⟩ :: pieces) gap rest where
  listing := congrArg (t.listed :: ·) h.listing
  whole := by rw [List.flatMap_cons, List.append_assoc, ← h.whole]
  blanks := by
    have hall := List.forall_mem_cons.1 h.blanks
    exact List.forall_mem_cons.2 ⟨hall.1, List.forall_mem_cons.2 ⟨hw, hall.2⟩⟩
  fits := by
    intro before x after heq
    cases before with
    | nil =>
      cases heq
      rw [List.flatMap_nil, List.append_nil, ← h.whole]
      exact hfits
    | cons y before =>
      obtain ⟨rfl, htail⟩ := List.cons.inj heq
      have := h.fits before x after htail
      rwa [List.flatMap_cons, ← List.append_assoc]
  success := by
    intro hnone
    obtain ⟨hgap, hrest, before, p, hbefore, hkind⟩ := h.success hnone
    exact ⟨hgap, hrest, t.listed :: before, p, congrArg (t.listed :: ·) hbefore,
      List.forall_mem_cons.2 ⟨t.kind_listed, hkind⟩⟩
  fault := by
    intro e he
    obtain ⟨hkind, hpos, hcode⟩ := h.fault e he
    refine ⟨List.forall_mem_cons.2 ⟨t.kind_listed, hkind⟩, ?_, hcode⟩
    rwa [List.flatMap_cons, ← List.append_assoc]

theorem end_of_text {p : Position} (hw : Blanks (Text.ofBytes src))
    (hp : p = .afterBytes (done ++ src)) :
    Tiling done src ⟨[], .eof p⟩ [⟨src, ⟨.eof, "", 0, p⟩⟩] [] [] where
  listing := rfl
  whole := by simp [Piece.bytes, Text.ofString, Text.toBytes]
  blanks := by
    simp only [List.map_cons, List.map_nil, List.forall_mem_cons, List.not_mem_nil,
      false_implies, implies_true, and_true]
    exact ⟨by simp [Text.ofBytes, Blanks], hw⟩
  fits := by
    intro before x after heq
    obtain ⟨rfl, heq⟩ | ⟨_, rfl, hcons⟩ := List.cons_eq_append_iff.1 heq
    · cases heq
      exact ⟨by simpa using hp, by simp, by simp⟩
    · simp at hcons
  success := fun _ => ⟨rfl, rfl, [], p, rfl, by simp⟩
  fault := by
    intro e he
    cases he

theorem end_at_fault {e : LexError} (hw : Blanks (Text.ofBytes gap))
    (hpos : e.pos = .afterBytes (done ++ gap))
    (hno : Cursor.NoToken (Text.ofBytes rest) e.cause) :
    Tiling done (gap ++ rest) ⟨[], .fault e⟩ [] gap rest where
  listing := rfl
  whole := rfl
  blanks := by simpa using hw
  fits := by simp
  success := by
    intro hnone
    cases hnone
  fault := by
    intro e' he
    cases he
    exact ⟨by simp [Scan.listing], by simpa using hpos, hno.head_code, hno⟩

end Tiling

theorem Token.fits {t : Token} {done w rest : Text}
    (hdone : Text.Readable (done ++ w)) (hrest : Text.Readable rest)
    (hparted : Text.Parted done (w ++ (t.lexeme.glyphs ++ rest))) (hw : Blanks w)
    (hl : t.lexeme.Proper) (hbreaks : t.lexeme.Breaks rest)
    (hpos : t.pos = Position.start.past (done ++ w)) :
    t.listed.Fits (Text.toBytes (done ++ w)) (Text.toBytes rest) where
  place := hpos.trans (Position.past_of_readable hdone)
  number := by
    intro hkind
    obtain ⟨hrun, hgoesOn⟩ := hl.isNumeral hkind
    rw [hdone, hrest]
    exact ⟨hrun, hparted.wordTail_before_number hw hrun, hgoesOn ▸ hbreaks⟩
  word := by
    intro hkind
    obtain ⟨hrun, hgoesOn⟩ := hl.isWord hkind
    rw [hdone, hrest]
    exact ⟨hrun, hparted.wordTail_before_word hw hrun, hgoesOn ▸ hbreaks⟩

/-- What is left at a cursor is tiled by its tokens, if it can be read apart from what is done. -/
theorem Cursor.tiling_scan (c : Cursor) : ∀ {done : Text}, Text.Readable (done ++ c.rest) →
    c.pos = Position.start.past done → Text.Parted done c.rest →
      ∃ pieces gap rest, Tiling done.toBytes c.rest.toBytes c.scan pieces gap rest := by
  induction c using scan_induction with
  | @token c after t h ih =>
    intro done hread hpos hparted
    obtain ⟨w, hw, hrest, hl, hbreaks, htpos, hapos⟩ := step_token_iff.1 h
    rw [hrest] at hread hparted ⊢
    rw [hpos, ← Position.past_append] at htpos
    have hafter : Text.Readable ((done ++ (w ++ t.lexeme.glyphs)) ++ after.rest) := by
      simpa only [List.append_assoc] using hread
    have hbefore : Text.Readable ((done ++ w) ++ (t.lexeme.glyphs ++ after.rest)) := by
      simpa only [List.append_assoc] using hread
    have hfits := Token.fits hbefore.append.1 hafter.append.2 hparted hw hl hbreaks htpos
    obtain ⟨pieces, gap, rest, htiling⟩ := ih hafter
      (by rw [hapos, htpos, ← Position.past_append, List.append_assoc])
      (hparted.append_token hw hl hbreaks)
    have hgap : Blanks (Text.ofBytes w.toBytes) := by rwa [hbefore.append.1.append.2]
    rw [scan_token h, ← List.append_assoc, Text.toBytes_append, Text.toBytes_append]
    rw [Text.toBytes_append] at hfits
    rw [Text.toBytes_append, Text.toBytes_append] at htiling
    exact ⟨_, gap, rest, .cons hgap hfits htiling⟩
  | @stop c s h =>
    intro done hread hpos _
    rw [scan_stop h]
    cases s with
    | eof q =>
      obtain ⟨hw, rfl⟩ := step_eof_iff.1 h
      have hall : Blanks (Text.ofBytes c.rest.toBytes) := by rwa [hread.append.2]
      refine ⟨_, [], [], .end_of_text hall ?_⟩
      rw [hpos, ← Position.past_append, Position.past_of_readable hread, Text.toBytes_append]
    | fault e =>
      obtain ⟨w, rest, hw, hrest, _, hno, hepos⟩ := step_fault_iff.1 h
      rw [hrest] at hread ⊢
      rw [← List.append_assoc] at hread
      have hgap : Blanks (Text.ofBytes w.toBytes) := by rwa [hread.append.1.append.2]
      rw [Text.toBytes_append]
      refine ⟨[], _, _, .end_at_fault hgap ?_ (by rwa [hread.append.2])⟩
      rw [hepos, hpos, ← Position.past_append, Position.past_of_readable hread.append.1,
        Text.toBytes_append]

/-- A source is its tokens and the blanks before them, up to its end or to where no token stands. -/
theorem Scan.exists_tiling (src : List UInt8) :
    ∃ pieces gap rest, Tiling [] src (Scan.ofText (Text.ofBytes src)) pieces gap rest := by
  have h := @Cursor.tiling_scan (Cursor.ofText (Text.ofBytes src)) []
    (Text.readable_ofBytes src) rfl (.inl rfl)
  rwa [Cursor.ofText, Text.toBytes_ofBytes] at h

end BlockCalc
