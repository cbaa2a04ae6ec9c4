import BlockCalc.Text.Glyph

/-!
# BlockCalc.Position

Places in a text: a line and a column, both counted from 1 in source text. A hand-made tree may
carry any pair of integers.
-/

namespace BlockCalc

structure Position where
  line : Int
  column : Int
deriving DecidableEq, Repr, Inhabited

namespace Position

/-- The place of the first glyph of a text. -/
def start : Position := ⟨1, 1⟩

/-- The place after a glyph: a newline begins the next line. -/
def after (p : Position) (g : Glyph) : Position :=
  if g = Text.newline then ⟨p.line + 1, 1⟩ else ⟨p.line, p.column + 1⟩

/-- The place after a text that begins at `p`. -/
def past (p : Position) (t : Text) : Position := t.foldl after p

/-- Line by line, then column by column. -/
def le (p q : Position) : Bool :=
  if p.line = q.line then p.column ≤ q.column else p.line < q.line

def render (p : Position) : String := s!"{p.line}:{p.column}"

end Position
end BlockCalc
