import BlockCalc.Text.Terminal

/-!
# BlockCalc.Text.Panel

Text laid out for a terminal: tabs become four spaces, a carriage return before a newline goes
away, and the lines of a text of several are made equally wide. A panel is such a text inside a
frame.
-/

namespace BlockCalc
namespace Text

def expandTabs (t : Text) : Text :=
  t.flatMap fun g => if g = .char '\t' then spaces 4 else [g]

/-- Drops every carriage return that stands before a newline. -/
def plainLineEnds : Text → Text
  | [] => []
  | g :: rest =>
    if g = .char '\r' ∧ rest.head? = some newline then plainLineEnds rest
    else g :: plainLineEnds rest

def widest (ls : List Text) : Nat := (ls.map width).foldl max 0

/-- Lines with spaces after them, up to the widest. -/
def aligned (ls : List Text) : List Text :=
  ls.map fun l => l ++ spaces (widest ls - l.width)

def display (t : Text) : Text :=
  join [newline] (aligned (lines (plainLineEnds (expandTabs t))))

def frameRule (left right : Char) (width : Nat) : Text :=
  .char left :: List.replicate width (.char '─') ++ [.char right]

/-- A text with a space on either side, inside a frame. -/
def panel (t : Text) : Text :=
  let padded := (lines (plainLineEnds (expandTabs t))).map fun l => spaces 1 ++ l ++ spaces 1
  let width := widest padded
  join [newline]
    (frameRule '╭' '╮' width ::
      (aligned padded).map (fun l => .char '│' :: l ++ [.char '│']) ++
      [frameRule '╰' '╯' width])

end Text
end BlockCalc
