import BlockCalc.Text.Glyph
import BlockCalc.Text.Interval

/-!
# BlockCalc.Text.Blank

White space (the Unicode property White_Space): what separates tokens, what is trimmed from the
ends of an entry, and what divides an entry into words.
-/

namespace BlockCalc
namespace Blank

def blanks : Intervals := [
  (0x9, 0xD), (0x20, 0x20), (0x85, 0x85), (0xA0, 0xA0), (0x1680, 0x1680), (0x2000, 0x200A),
  (0x2028, 0x2029), (0x202F, 0x202F), (0x205F, 0x205F), (0x3000, 0x3000)]

end Blank

namespace Glyph

def isBlank (g : Glyph) : Bool := Blank.blanks.covers g.code

end Glyph

namespace Text

def trimLeft (t : Text) : Text := t.dropWhile Glyph.isBlank

/-- Drops the longest run of glyphs satisfying `p` from the end. -/
def dropEndWhile (p : Glyph → Bool) (t : Text) : Text := (t.reverse.dropWhile p).reverse

def trim (t : Text) : Text := dropEndWhile Glyph.isBlank (trimLeft t)

/-- The words so far, the unfinished one first; a blank ends a word that has begun. -/
def wordsFrom : Text → Text → List Text
  | word, [] => if word.isEmpty then [] else [word.reverse]
  | word, g :: rest =>
    if g.isBlank then
      if word.isEmpty then wordsFrom [] rest else word.reverse :: wordsFrom [] rest
    else wordsFrom (g :: word) rest

/-- The maximal runs of glyphs that are not blank. -/
def words (t : Text) : List Text := wordsFrom [] t

end Text
end BlockCalc
