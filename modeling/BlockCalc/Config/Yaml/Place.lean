/-!
# BlockCalc.Config.Yaml.Place

Where a reader of YAML stands in its text. Lines and columns matter to it, and so does how far it
has looked ahead: text comes in pieces of at most 512 bytes, and a character that YAML forbids is an
error only where its piece is asked for.
-/

namespace BlockCalc
namespace Yaml

/-! ## Characters -/

def isAllowed (c : Char) : Bool :=
  let n := c.toNat
  n == 0x09 || n == 0x0A || n == 0x0D || (0x20 ≤ n && n ≤ 0x7E) || n == 0x85 ||
    (0xA0 ≤ n && n ≤ 0xFFFD) || 0x10000 ≤ n

def isSpaceOrTab (c : Char) : Bool := c == ' ' || c == '\t'

def isBreak (c : Char) : Bool :=
  c == '\n' || c == '\r' || c.toNat == 0x85 || c.toNat == 0x2028 || c.toNat == 0x2029

/-- A blank, a line break or the end follows. -/
def atGap : List Char → Bool
  | [] => true
  | c :: _ => isSpaceOrTab c || isBreak c

def isNameChar (c : Char) : Bool :=
  ('A' ≤ c && c ≤ 'Z') || ('a' ≤ c && c ≤ 'z') || ('0' ≤ c && c ≤ '9') || c == '_' || c == '-'

def byteOrderMark : Char := '\ufeff'

/-! ## Pieces -/

/-- A piece of the text: how many characters there are up to its end, and whether all of its own
are allowed. -/
structure Piece where
  upTo : Nat
  sound : Bool
deriving DecidableEq, Repr, Inhabited

def pieceSize : Nat := 512

/-- The pieces of a text: the one begun has `used` bytes, and `count` characters stand up to
there. No character is divided between two pieces. -/
def piecesFrom : Nat → Nat → Bool → List Char → List Piece
  | count, used, sound, [] => if used = 0 then [] else [⟨count, sound⟩]
  | count, used, sound, c :: rest =>
    if used + c.utf8Size ≤ pieceSize then
      piecesFrom (count + 1) (used + c.utf8Size) (sound && isAllowed c) rest
    else ⟨count, sound⟩ :: piecesFrom (count + 1) c.utf8Size (isAllowed c) rest

/-! ## Places -/

/-- The text from some place on, and that place. `breaks` counts the line breaks since the last
character that is no blank, `loaded` the characters of the pieces asked for, and `markedLoad` says
whether the reader stood before a byte order mark when it asked for the last one. The whole text
has `size` characters, so no loop over it takes more steps. -/
structure Place where
  size : Nat
  rest : List Char
  line : Nat
  column : Nat
  index : Nat
  breaks : Nat
  loaded : Nat
  pieces : List Piece
  markedLoad : Bool
deriving Inhabited

namespace Place

/-- The beginning of a text. A byte order mark there is no part of the text, but of its first
piece. -/
def start (cs : List Char) : Place :=
  let at0 (used : Nat) (cs : List Char) : Place :=
    ⟨cs.length, cs, 0, 0, 0, 0, 0, piecesFrom 0 used true cs, false⟩
  match cs with
  | c :: rest => if c = byteOrderMark then at0 c.utf8Size rest else at0 0 cs
  | [] => at0 0 []

/-- Asks for pieces until there are `goal` characters; the end of the text counts as one. -/
def loadPieces (goal : Nat) : Nat → List Piece → Option (Nat × List Piece)
  | loaded, [] => some (loaded + 1, [])
  | _, q :: qs =>
    if q.sound then if goal ≤ q.upTo then some (q.upTo, qs) else loadPieces goal q.upTo qs
    else none

def atBreak (p : Place) : Bool := p.rest.head?.any isBreak

def atBlank (p : Place) : Bool := p.rest.head?.any isSpaceOrTab

/-- A mark of three characters that begins or ends a document. -/
def atMark (p : Place) (c : Char) : Bool :=
  p.column == 0 && p.rest.take 3 == [c, c, c] && atGap (p.rest.drop 3)

def atDocumentMark (p : Place) : Bool := p.atMark '-' || p.atMark '.'

/-- The place after the next character, which ends no line. -/
def next (p : Place) : Place :=
  { p with
    rest := p.rest.drop 1
    column := p.column + 1
    index := p.index + 1
    breaks := if p.atBlank then p.breaks else 0 }

/-- The line break at the place, as it is kept, and the place after it. -/
def lineBreak (p : Place) : List Char × Place :=
  let ended (width : Nat) : Place :=
    { p with
      rest := p.rest.drop width
      line := p.line + 1
      column := 0
      index := p.index + width
      breaks := p.breaks + 1 }
  match p.rest with
  | '\r' :: '\n' :: _ => (['\n'], ended 2)
  | c :: _ =>
    if isBreak c then
      (if c.toNat = 0x2028 ∨ c.toNat = 0x2029 then [c] else ['\n'], ended 1)
    else ([], p)
  | [] => ([], p)

end Place

/-! ## Reading -/

/-- A reader goes from place to place, or fails. -/
abbrev Read (α : Type) := StateT Place Option α

/-- The text from here on. -/
def rest : Read (List Char) := do return (← get).rest

/-- Enough steps for any loop over the text. -/
def steps : Read Nat := do return (← get).size + 1

/-- Looks `n` characters ahead. -/
def need (n : Nat) : Read Unit := do
  let p ← get
  if p.loaded < p.index + n then
    let (loaded, pieces) ← Place.loadPieces (p.index + n) p.loaded p.pieces
    set { p with
      loaded := loaded
      pieces := pieces
      markedLoad := p.rest.head? == some byteOrderMark }

def skip : Read Unit := modify Place.next

/-- Goes on by `n` characters of the same line. -/
def skipMany : Nat → Read Unit
  | 0 => pure ()
  | n + 1 => do
    skip
    skipMany n

/-- Reads a line break, as it is kept. -/
def lineBreak : Read (List Char) := modifyGet Place.lineBreak

/-- At most `n` characters that fulfil `f`, all of one line. -/
def spanAtMost (f : Char → Bool) : Nat → Read (List Char)
  | 0 => pure []
  | n + 1 => do
    need 1
    match ← rest with
    | [] => return []
    | c :: _ =>
      if f c then
        skip
        return c :: (← spanAtMost f n)
      else return []

/-- The characters that fulfil `f`, all of one line. -/
def span (f : Char → Bool) : Read (List Char) := do
  spanAtMost f (← steps)

def skipBlanks : Read Unit := do
  let _ ← span isSpaceOrTab

/-- The rest of the line. -/
def skipLine : Read Unit := do
  let _ ← span fun c => !isBreak c

end Yaml
end BlockCalc
