import Mathlib.Data.List.Chain
import BlockCalc.Proofs.Tiling

/-!
# BlockCalc.Proofs.Separation

Lexemes that are written one after another, with blanks where two would run together, are the
tokens that are read. A number too large for 64 bits ends the list where it stands.
-/

namespace BlockCalc

/-! ## Lexemes on paper -/

def symbols : List (String × TokenKind) :=
  [("+", .plus), ("-", .minus), ("*", .star), ("/", .slash), ("(", .lparen), (")", .rparen),
    (".", .dot), (";", .semi), (":=", .assign)]

inductive Written where
  | symbol (text : String) (kind : TokenKind)
  | digits (text : String)
  | word (text : String)
deriving DecidableEq, Repr

instance (t : Text) : Decidable (IsNumeral t) := inferInstanceAs (Decidable (_ ∧ _))

instance (t : Text) : Decidable (Blanks t) := inferInstanceAs (Decidable (∀ g ∈ t, _))

instance : (t : Text) → Decidable (IsWord t)
  | [] => .isFalse nofun
  | g :: rest =>
    decidable_of_iff (g.isLetter = true ∧ ∀ h ∈ rest, h.isWordPart = true)
      ⟨fun h => ⟨g, rest, rfl, h⟩, by rintro ⟨_, _, ⟨⟩, h⟩; exact h⟩

namespace Written

def text : Written → String
  | .symbol text _ => text
  | .digits text => text
  | .word text => text

def kind : Written → TokenKind
  | .symbol _ k => k
  | .digits _ => .integer
  | .word text =>
    if text = "BEGIN" then .beginWord else if text = "END" then .endWord else .ident

/-- The number that digits denote; zero for all else. -/
def number : Written → Nat
  | .digits text => Nat.ofDigitChars 10 text.toList 0
  | _ => 0

def Valid : Written → Prop
  | .symbol text k => (text, k) ∈ symbols
  | .digits text => IsNumeral (Text.ofString text)
  | .word text => IsWord (Text.ofString text)

instance : DecidablePred Valid
  | .symbol text k => inferInstanceAs (Decidable ((text, k) ∈ symbols))
  | .digits text => inferInstanceAs (Decidable (IsNumeral (Text.ofString text)))
  | .word text => inferInstanceAs (Decidable (IsWord (Text.ofString text)))

/-- Numbers that fit 64 bits. -/
def Fits (w : Written) : Prop := w.number ≤ 9223372036854775807

instance : DecidablePred Fits := fun w => inferInstanceAs (Decidable (w.number ≤ _))

/-- What runs together unless blanks stand between. -/
def clashes : Written → Written → Bool
  | .word _, .word _ => true
  | .word _, .digits _ => true
  | .digits _, .digits _ => true
  | _, _ => false

end Written

/-- A lexeme and the blanks before it. -/
structure Item where
  gap : String
  written : Written
deriving DecidableEq, Repr

/-- The items one after another, then `last`. -/
def printed : List Item → String → String
  | [], last => last
  | x :: xs, last => x.gap ++ (x.written.text ++ printed xs last)

/-- Valid lexemes with blanks before them, and with some where they would run together. -/
structure Separated (xs : List Item) : Prop where
  valid : ∀ x ∈ xs, x.written.Valid
  blanks : ∀ x ∈ xs, Blanks (Text.ofString x.gap)
  apart : xs.IsChain fun x y => x.written.clashes y.written = true → y.gap ≠ ""

instance (xs : List Item) : Decidable (Separated xs) :=
  decidable_of_iff ((∀ x ∈ xs, x.written.Valid) ∧ (∀ x ∈ xs, Blanks (Text.ofString x.gap)) ∧
      xs.IsChain fun x y => x.written.clashes y.written = true → y.gap ≠ "")
    ⟨fun ⟨hvalid, hblanks, hapart⟩ => ⟨hvalid, hblanks, hapart⟩, fun h => ⟨h.1, h.2, h.3⟩⟩

/-- What is said of a token besides its place. -/
def Listed.content (x : Listed) : TokenKind × String × Int := (x.kind, x.literal, x.value.toInt)

def Written.content (w : Written) : TokenKind × String × Int := (w.kind, w.text, w.number)

def utf8 (s : String) : List UInt8 := Text.toBytes (Text.ofString s)

/-! ## Where a lexeme ends -/

namespace Written

/-- The glyphs that a lexeme takes in when they stand right after it. -/
def goesOn : Written → Glyph → Bool
  | .symbol _ _ => fun _ => false
  | .digits _ => Glyph.isAsciiDigit
  | .word _ => Glyph.isWordPart

theorem goesOn_of_not_isWordPart (w : Written) {g : Glyph} (h : g.isWordPart = false) :
    w.goesOn g = false := by
  cases w with
  | symbol => rfl
  | digits => exact Glyph.not_isAsciiDigit_of_not_isWordPart h
  | word => exact h

theorem Valid.head_symbol {text : String} {k : TokenKind} (h : (Written.symbol text k).Valid) :
    ∃ g rest, Text.ofString text = g :: rest ∧ g.isWordPart = false := by
  simp only [Valid, symbols, List.mem_cons, List.not_mem_nil, or_false, Prod.mk.injEq] at h
  rcases h with ⟨rfl, _⟩ | ⟨rfl, _⟩ | ⟨rfl, _⟩ | ⟨rfl, _⟩ | ⟨rfl, _⟩ | ⟨rfl, _⟩ | ⟨rfl, _⟩ |
    ⟨rfl, _⟩ | ⟨rfl, _⟩ <;> exact ⟨_, _, rfl, by decide⟩

theorem Valid.stopsAt {v w : Written} (hv : v.Valid) (hclash : w.clashes v = false)
    (rest : Text) : Text.StopsAt w.goesOn (Text.ofString v.text ++ rest) := by
  cases v with
  | symbol text k =>
    obtain ⟨g, more, hg, hpart⟩ := hv.head_symbol
    rintro g' hg'
    rw [Written.text, hg] at hg'
    cases hg'
    exact w.goesOn_of_not_isWordPart hpart
  | digits text =>
    cases w with
    | symbol => exact fun _ _ => rfl
    | digits => cases hclash
    | word => cases hclash
  | word text =>
    cases w with
    | symbol => exact fun _ _ => rfl
    | digits =>
      obtain ⟨g, more, hg, hletter, _⟩ := hv
      intro g' hg'
      rw [Written.text, hg] at hg'
      cases hg'
      exact Glyph.not_isAsciiDigit_of_isLetter hletter
    | word => cases hclash

theorem Valid.exists_lexeme {w : Written} (h : w.Valid) (hfits : w.Fits) :
    ∃ l : Lexeme, l.Proper ∧ l.glyphs = Text.ofString w.text ∧ l.goesOn = w.goesOn ∧
      ∀ p, (Token.mk l p).listed.content = w.content := by
  cases w with
  | symbol text k =>
    simp only [Valid, symbols, List.mem_cons, List.not_mem_nil, or_false, Prod.mk.injEq] at h
    rcases h with ⟨rfl, rfl⟩ | ⟨rfl, rfl⟩ | ⟨rfl, rfl⟩ | ⟨rfl, rfl⟩ | ⟨rfl, rfl⟩ | ⟨rfl, rfl⟩ |
      ⟨rfl, rfl⟩ | ⟨rfl, rfl⟩ | ⟨rfl, rfl⟩
    · exact ⟨.plus, trivial, rfl, rfl, fun _ => rfl⟩
    · exact ⟨.minus, trivial, rfl, rfl, fun _ => rfl⟩
    · exact ⟨.star, trivial, rfl, rfl, fun _ => rfl⟩
    · exact ⟨.slash, trivial, rfl, rfl, fun _ => rfl⟩
    · exact ⟨.lparen, trivial, rfl, rfl, fun _ => rfl⟩
    · exact ⟨.rparen, trivial, rfl, rfl, fun _ => rfl⟩
    · exact ⟨.dot, trivial, rfl, rfl, fun _ => rfl⟩
    · exact ⟨.semi, trivial, rfl, rfl, fun _ => rfl⟩
    · exact ⟨.assign, trivial, rfl, rfl, fun _ => rfl⟩
  | digits text =>
    have hnumber : decimal (Text.ofString text) = (Written.digits text).number :=
      decimal_ofString text
    have hlt : (Written.digits text).number < 0x8000000000000000 := by
      unfold Fits at hfits; omega
    refine ⟨.integer text (Int64.ofNat (Written.digits text).number), ?_, rfl, rfl, ?_⟩
    · rw [← hnumber] at hlt ⊢
      exact ⟨h, hlt, rfl⟩
    · intro p
      exact congrArg (fun n => (TokenKind.integer, text, n)) (Int64.toInt_ofNat_of_lt hlt)
  | word text =>
    obtain ⟨hglyphs, hproper, hgoesOn⟩ := Lexeme.glyphs_ofWord h
    rw [Text.toString_ofString] at hglyphs hproper hgoesOn
    refine ⟨.ofWord text, hproper, hglyphs, hgoesOn, fun p => ?_⟩
    simp only [Token.listed, Listed.content, content, kind, number, Lexeme.ofWord]
    split
    · rename_i hb; subst hb; rfl
    · split
      · rename_i he; subst he; rfl
      · rfl

end Written

theorem Text.stopsAt_blanks_append {p : Glyph → Bool} {w rest : Text}
    (hp : ∀ g : Glyph, g.isWordPart = false → p g = false) (hw : Blanks w)
    (hrest : w = [] → StopsAt p rest) : StopsAt p (w ++ rest) := by
  cases w with
  | nil => exact hrest rfl
  | cons b w =>
    intro g hg
    cases hg
    exact hp b (Glyph.not_isWordPart_of_isBlank (hw b List.mem_cons_self))

namespace Separated

variable {x : Item} {xs : List Item}

theorem of_append_right {ys : List Item} (h : Separated (xs ++ ys)) : Separated ys where
  valid := fun y hy => h.valid y (List.mem_append_right xs hy)
  blanks := fun y hy => h.blanks y (List.mem_append_right xs hy)
  apart := h.apart.right_of_append

theorem of_cons (h : Separated (x :: xs)) : Separated xs := @of_append_right [x] xs h

theorem stopsAt {last : String} (h : Separated (x :: xs)) (hlast : Blanks (Text.ofString last)) :
    Text.StopsAt x.written.goesOn (Text.ofString (printed xs last)) := by
  have hpart : ∀ g : Glyph, g.isWordPart = false → x.written.goesOn g = false :=
    fun g => x.written.goesOn_of_not_isWordPart
  cases xs with
  | nil =>
    have := Text.stopsAt_blanks_append hpart hlast fun _ => Text.stopsAt_nil _
    rwa [List.append_nil] at this
  | cons y ys =>
    rw [printed, Text.ofString_append, Text.ofString_append]
    refine Text.stopsAt_blanks_append hpart (h.of_cons.blanks y List.mem_cons_self) fun hnil => ?_
    refine (h.of_cons.valid y List.mem_cons_self).stopsAt ?_ _
    have hgap : y.gap = "" := by
      rw [← Text.toString_ofString y.gap, hnil]; rfl
    have happart := (List.isChain_cons_cons.1 h.apart).1
    exact Bool.eq_false_iff.2 fun hclash => happart hclash hgap

end Separated

/-! ## Scanning what is printed -/

/-- The items `before` that fit are read, and scanning goes on with those `after`. -/
theorem Cursor.scan_printed {before after : List Item} {last : String}
    (h : Separated (before ++ after)) (hlast : Blanks (Text.ofString last))
    (hfits : ∀ x ∈ before, x.written.Fits) (p : Position) :
    let next := scan
      ⟨Text.ofString (printed after last), p.past (Text.ofString (printed before ""))⟩
    ∃ ts : List Token, ts.map (·.listed.content) = before.map (·.written.content) ∧
      scan ⟨Text.ofString (printed (before ++ after) last), p⟩ =
        ⟨ts ++ next.tokens, next.stop⟩ := by
  induction before generalizing p with
  | nil => exact ⟨[], rfl, rfl⟩
  | cons x before ih =>
    obtain ⟨hx, hbefore⟩ := List.forall_mem_cons.1 hfits
    obtain ⟨l, hl, hglyphs, hgoesOn, hcontent⟩ :=
      (h.valid x List.mem_cons_self).exists_lexeme hx
    have hbreaks : l.Breaks (Text.ofString (printed (before ++ after) last)) := by
      rw [Lexeme.Breaks, hgoesOn]
      exact h.stopsAt hlast
    have hstep : step ⟨Text.ofString (printed (x :: before ++ after) last), p⟩ =
        .token ⟨l, p.past (Text.ofString x.gap)⟩
          ⟨Text.ofString (printed (before ++ after) last),
            (p.past (Text.ofString x.gap)).past l.glyphs⟩ := by
      refine step_token_iff.2
        ⟨Text.ofString x.gap, h.blanks x List.mem_cons_self, ?_, hl, hbreaks, rfl, rfl⟩
      simp only [List.cons_append, printed, Text.ofString_append, hglyphs]
    obtain ⟨ts, hts, hscan⟩ := ih h.of_cons hbefore ((p.past (Text.ofString x.gap)).past l.glyphs)
    refine ⟨⟨l, p.past (Text.ofString x.gap)⟩ :: ts, ?_, ?_⟩
    · rw [List.map_cons, List.map_cons, hts, hcontent]
    · rw [scan_token hstep, hscan, printed, Text.ofString_append, Text.ofString_append,
        Position.past_append, Position.past_append, hglyphs]
      rfl

theorem printed_append_gap (xs : List Item) (w : String) : printed xs "" ++ w = printed xs w := by
  induction xs with
  | nil => exact String.empty_append
  | cons x xs ih => rw [printed, String.append_assoc, String.append_assoc, ih, printed]

theorem Cursor.scan_printed_all {xs : List Item} {last : String} (h : Separated xs)
    (hlast : Blanks (Text.ofString last)) (hfits : ∀ x ∈ xs, x.written.Fits) :
    ∃ ts q, ts.map (·.listed.content) = xs.map (·.written.content) ∧
      scan ⟨Text.ofString (printed xs last), .start⟩ = ⟨ts, .eof q⟩ := by
  obtain ⟨ts, hts, hscan⟩ :=
    @scan_printed xs [] last (by rwa [List.append_nil]) hlast hfits .start
  have hstop := scan_stop (step_eof_iff.2 ⟨hlast, rfl⟩ : step
    ⟨Text.ofString last, Position.start.past (Text.ofString (printed xs ""))⟩ = .stop (.eof _))
  rw [List.append_nil, printed, hstop, List.append_nil] at hscan
  exact ⟨ts, _, hts, hscan⟩

theorem Cursor.scan_printed_fault {before after : List Item} {w d last : String}
    (h : Separated (before ++ ⟨w, .digits d⟩ :: after)) (hlast : Blanks (Text.ofString last))
    (hfits : ∀ x ∈ before, x.written.Fits) (hlarge : ¬ (Written.digits d).Fits) :
    ∃ ts, ts.map (·.listed.content) = before.map (·.written.content) ∧
      scan ⟨Text.ofString (printed (before ++ ⟨w, .digits d⟩ :: after) last), .start⟩ =
        ⟨ts, .fault ⟨.afterBytes (utf8 (printed before w)), .tooLarge d⟩⟩ := by
  obtain ⟨ts, hts, hscan⟩ := scan_printed h hlast hfits .start
  refine ⟨ts, hts, ?_⟩
  have hdigits := h.of_append_right
  have hrun : IsNumeral (Text.ofString d) := hdigits.valid _ List.mem_cons_self
  have hno : NoToken (Text.ofString d ++ Text.ofString (printed after last)) (.tooLarge d) := by
    have hdecimal : 0x8000000000000000 ≤ decimal (Text.ofString d) := by
      rw [decimal_ofString]
      exact Nat.lt_of_not_le hlarge
    have := NoToken.tooLarge hrun (hdigits.stopsAt hlast) hdecimal
    rwa [Text.toString_ofString] at this
  have hpos : Position.afterBytes (utf8 (printed before w)) =
      (Position.start.past (Text.ofString (printed before ""))).past (Text.ofString w) := by
    rw [utf8, ← Position.past_of_readable (Text.readable_ofString _), ← Position.past_append,
      ← Text.ofString_append, printed_append_gap]
  have hstop := scan_stop (step_fault_iff.2 ⟨_, _, hdigits.blanks _ List.mem_cons_self,
    by simp only [printed, Text.ofString_append]; rfl, hrun.stopsAt_blank _, hno, hpos⟩ : step
    ⟨Text.ofString (printed (⟨w, .digits d⟩ :: after) last),
      Position.start.past (Text.ofString (printed before ""))⟩ =
        .stop (.fault ⟨_, .tooLarge d⟩))
  rw [hstop, List.append_nil] at hscan
  exact hscan

theorem exists_first_large {xs : List Item} (h : ∃ x ∈ xs, ¬ x.written.Fits) :
    ∃ before w d after, xs = before ++ ⟨w, .digits d⟩ :: after ∧
      (∀ x ∈ before, x.written.Fits) ∧ ¬ (Written.digits d).Fits := by
  obtain ⟨y, hy⟩ := Option.isSome_iff_exists.1
    ((List.find?_isSome (p := fun x : Item => decide (¬ x.written.Fits))).2 (by simpa using h))
  obtain ⟨hlarge, before, after, hxs, hbefore⟩ := List.find?_eq_some_iff_append.1 hy
  have hlarge : ¬ y.written.Fits := by simpa using hlarge
  obtain ⟨w, v⟩ := y
  cases v with
  | symbol => exact absurd (Nat.zero_le _) hlarge
  | word => exact absurd (Nat.zero_le _) hlarge
  | digits d => exact ⟨before, w, d, after, hxs, by simpa using hbefore, hlarge⟩

/-- Lexemes that are printed apart are the tokens of the text, up to the first number that does not
fit. -/
theorem Scan.listing_printed {xs : List Item} {last : String} (h : Separated xs)
    (hlast : Blanks (Text.ofString last)) :
    let s := Scan.ofText (Text.ofBytes (utf8 (printed xs last)))
    ((∀ x ∈ xs, x.written.Fits) → s.error? = none ∧
      s.listing.map Listed.content = xs.map (·.written.content) ++ [(.eof, "", 0)]) ∧
    ((∃ x ∈ xs, ¬ x.written.Fits) → ∃ before w d after,
      xs = before ++ ⟨w, .digits d⟩ :: after ∧ (∀ x ∈ before, x.written.Fits) ∧
      ¬ (Written.digits d).Fits ∧
      s.error? = some ⟨.afterBytes (utf8 (printed before w)), .tooLarge d⟩ ∧
      s.listing.map Listed.content = before.map (·.written.content)) := by
  intro s
  have hs : s = Cursor.scan ⟨Text.ofString (printed xs last), .start⟩ :=
    congrArg Scan.ofText (Text.ofBytes_toBytes_ofString _)
  constructor
  · intro hfits
    obtain ⟨ts, q, hts, hscan⟩ := Cursor.scan_printed_all h hlast hfits
    rw [hs, hscan]
    refine ⟨rfl, ?_⟩
    rw [listing, List.map_append, List.map_map, ← hts]
    rfl
  · intro hlarge
    obtain ⟨before, w, d, after, rfl, hbefore, hd⟩ := exists_first_large hlarge
    obtain ⟨ts, hts, hscan⟩ := Cursor.scan_printed_fault h hlast hbefore hd
    rw [hs, hscan]
    refine ⟨before, w, d, after, rfl, hbefore, hd, rfl, ?_⟩
    rw [listing, List.append_nil, List.map_map, ← hts]
    rfl

theorem Scan.listing_printed_close :
    (Scan.ofText (Text.ofBytes (utf8 "BEGIN x1:=007END\n"))).listing.map Listed.content =
      [(.beginWord, "BEGIN", 0), (.ident, "x1", 0), (.assign, ":=", 0), (.integer, "007", 7),
        (.endWord, "END", 0), (.eof, "", 0)] ∧
    (Scan.ofText (Text.ofBytes (utf8 "x\t9223372036854775808"))).error? ≠ none := by
  constructor
  · exact ((@Scan.listing_printed [⟨"", .word "BEGIN"⟩, ⟨" ", .word "x1"⟩,
      ⟨"", .symbol ":=" .assign⟩, ⟨"", .digits "007"⟩, ⟨"", .word "END"⟩] "\n"
      (by decide +kernel) (by decide +kernel)).1 (by decide +kernel)).2
  · obtain ⟨_, _, _, _, _, _, _, he, _⟩ := (@Scan.listing_printed
      [⟨"", .word "x"⟩, ⟨"\t", .digits "9223372036854775808"⟩] ""
      (by decide +kernel) (by decide +kernel)).2 (by decide +kernel)
    exact fun hnone => nomatch hnone.symm.trans he

end BlockCalc
