import BlockCalc.Token
import BlockCalc.Text.Blank
import BlockCalc.Text.Letter

/-!
# BlockCalc.Token.Scanner

Scanning: a text becomes a list of tokens that stops at the end of the text or at the first thing
that is no token. A cursor is a place in the text together with what is left there; one step
skips blanks and takes the longest lexeme that stands next. A scanner gives out the tokens one at a
time, on request; at the end of the text it stays there, and a fault it keeps.
-/

namespace BlockCalc

/-- Why there is no token at a place. -/
inductive LexCause where
  | unexpected (g : Glyph)
  | loneColon
  | tooLarge (digits : String)
deriving DecidableEq, Repr, Inhabited

structure LexError where
  pos : Position
  cause : LexCause
deriving DecidableEq, Repr, Inhabited

namespace LexError

/-- The code point the error is about: a glyph that begins no token, a colon that stands alone, or
the first digit of a number that is too large. -/
def code (e : LexError) : Nat :=
  match e.cause with
  | .unexpected g => g.code
  | .loneColon => ':'.toNat
  | .tooLarge digits =>
    match digits.toList with
    | d :: _ => d.toNat
    | [] => 0

end LexError

/-- Where scanning ends. -/
inductive Stop where
  | eof (pos : Position)
  | fault (e : LexError)
deriving DecidableEq, Repr, Inhabited

def Stop.pos : Stop → Position
  | .eof p => p
  | .fault e => e.pos

/-- A place in a text, and the text from there on. -/
structure Cursor where
  rest : Text
  pos : Position
deriving DecidableEq, Repr, Inhabited

/-- What stands at a cursor. -/
inductive Step where
  | token (t : Token) (next : Cursor)
  | stop (s : Stop)
deriving DecidableEq, Repr, Inhabited

/-- The lexemes of a single glyph. -/
def Lexeme.ofGlyph? : Glyph → Option Lexeme
  | .char '+' => some .plus
  | .char '-' => some .minus
  | .char '*' => some .star
  | .char '/' => some .slash
  | .char '(' => some .lparen
  | .char ')' => some .rparen
  | .char '.' => some .dot
  | .char ';' => some .semi
  | _ => none

/-- The number a run of digits denotes. -/
def decimal (digits : Text) : Nat := digits.foldl (fun n g => n * 10 + (g.code - 0x30)) 0

namespace Cursor

def ofText (t : Text) : Cursor := ⟨t, .start⟩

/-- The cursor after the glyphs `taken`, which stand at it. -/
def move (c : Cursor) (taken rest : Text) : Cursor := ⟨rest, c.pos.past taken⟩

/-- The first place at or after the cursor that is not blank. -/
def skipBlanks (c : Cursor) : Cursor :=
  c.move (c.rest.takeWhile Glyph.isBlank) (c.rest.dropWhile Glyph.isBlank)

/-- The longest run of ASCII digits; it is a token if its number has 64 bits. -/
def integer (c : Cursor) : Step :=
  let run := c.rest.takeWhile Glyph.isAsciiDigit
  let digits := Text.toString run
  if decimal run < 0x8000000000000000 then
    .token ⟨.integer digits (Int64.ofNat (decimal run)), c.pos⟩
      (c.move run (c.rest.dropWhile Glyph.isAsciiDigit))
  else .stop (.fault ⟨c.pos, .tooLarge digits⟩)

/-- The longest run of letters and digits. -/
def word (c : Cursor) : Step :=
  let run := c.rest.takeWhile Glyph.isWordPart
  .token ⟨.ofWord (Text.toString run), c.pos⟩ (c.move run (c.rest.dropWhile Glyph.isWordPart))

/-- What stands at a cursor that is at no blank. -/
def lexeme (c : Cursor) : Step :=
  match c.rest with
  | [] => .stop (.eof c.pos)
  | g :: rest =>
    match Lexeme.ofGlyph? g with
    | some l => .token ⟨l, c.pos⟩ (c.move [g] rest)
    | none =>
      if g = .char ':' then
        match rest with
        | [] => .stop (.fault ⟨c.pos, .loneColon⟩)
        | g' :: rest' =>
          if g' = .char '=' then .token ⟨.assign, c.pos⟩ (c.move [g, g'] rest')
          else .stop (.fault ⟨c.pos, .loneColon⟩)
      else if g.isAsciiDigit then c.integer
      else if g.isLetter then c.word
      else .stop (.fault ⟨c.pos, .unexpected g⟩)

def step (c : Cursor) : Step := c.skipBlanks.lexeme

/-- Where a fault leaves the cursor it is found at: the digits of a number have been read by the
time it is too large, and nothing has been read of anything else. -/
def pastFault (c : Cursor) : LexCause → Cursor
  | .tooLarge _ =>
    c.move (c.rest.takeWhile Glyph.isAsciiDigit) (c.rest.dropWhile Glyph.isAsciiDigit)
  | _ => c

end Cursor

/-- A scanner in use: where it reads on, and the fault that has stopped it. -/
structure Scanner where
  cursor : Cursor
  fault : Option LexError
deriving DecidableEq, Repr, Inhabited

namespace Scanner

/-- The answer to one request for a token, and the scanner for the next request. -/
def next (s : Scanner) : Except Stop Token × Scanner :=
  match s.fault with
  | some e => (.error (.fault e), s)
  | none =>
    match s.cursor.step with
    | .token t after => (.ok t, ⟨after, none⟩)
    | .stop (.eof p) => (.error (.eof p), ⟨s.cursor.skipBlanks, none⟩)
    | .stop (.fault e) => (.error (.fault e), ⟨s.cursor.skipBlanks.pastFault e.cause, some e⟩)

/-- The answers to `n` requests one after another, and the scanner after them. -/
def run : Nat → Scanner → List (Except Stop Token) × Scanner
  | 0, s => ([], s)
  | n + 1, s =>
    match s.next with
    | (answer, after) =>
      match run n after with
      | (answers, last) => (answer :: answers, last)

end Scanner

/-- A scanner that has read nothing. -/
def Cursor.scanner (c : Cursor) : Scanner := ⟨c, none⟩

/-- The answers of a scanner that starts at the cursor. -/
def Cursor.requests (n : Nat) (c : Cursor) : List (Except Stop Token) := (c.scanner.run n).1

theorem length_dropWhile_lt {α : Type} {p : α → Bool} {a : α} {l : List α} (h : p a = true) :
    ((a :: l).dropWhile p).length < (a :: l).length := by
  simp only [List.dropWhile_cons, h, if_true, List.length_cons]
  have := (List.dropWhile_sublist (l := l) p).length_le
  omega

theorem Glyph.isWordPart_of_isLetter {g : Glyph} (h : g.isLetter = true) :
    g.isWordPart = true := by
  simp [isWordPart, h]

/-- A token takes at least one glyph. -/
theorem Cursor.lexeme_shorter {c after : Cursor} {t : Token} (h : c.lexeme = .token t after) :
    after.rest.length < c.rest.length := by
  unfold lexeme at h
  split at h
  · cases h
  · rename_i g rest hrest
    rw [hrest]
    split at h
    · cases h; simp [move]
    · split at h
      · split at h
        · cases h
        · split at h
          · cases h; simp only [move, List.length_cons]; omega
          · cases h
      · split at h
        · rename_i hd
          simp only [integer] at h
          split at h
          · cases h; simp only [move, hrest]; exact length_dropWhile_lt hd
          · cases h
        · split at h
          · rename_i hl
            simp only [word] at h
            cases h
            simp only [move, hrest]
            exact length_dropWhile_lt (Glyph.isWordPart_of_isLetter hl)
          · cases h

theorem Cursor.step_shorter {c after : Cursor} {t : Token} (h : c.step = .token t after) :
    after.rest.length < c.rest.length :=
  Nat.lt_of_lt_of_le (lexeme_shorter h) (List.dropWhile_sublist _).length_le

/-- The tokens of a text, and where they stop. -/
structure Scan where
  tokens : List Token
  stop : Stop
deriving DecidableEq, Repr, Inhabited

/-- The tokens from a cursor on. -/
def Cursor.scan (c : Cursor) : Scan :=
  match h : c.step with
  | .token t after =>
    have := step_shorter h
    let s := after.scan
    ⟨t :: s.tokens, s.stop⟩
  | .stop s => ⟨[], s⟩
termination_by c.rest.length

def Scan.ofText (t : Text) : Scan := (Cursor.ofText t).scan

end BlockCalc
