import BlockCalc.Text.Glyph
import BlockCalc.Text.Printable

/-!
# BlockCalc.Text.Quoted

Quoted text in messages, dumps and log lines. Printable characters stand for themselves; the
quote and the backslash follow a backslash; the other characters are escaped by a letter, by two
hexadecimal digits below U+0080, by four below U+10000 and by eight above. A stray byte is
escaped by its two digits.
-/

namespace BlockCalc
namespace Quoted

/-- The last `width` hexadecimal digits of `n`, lower case. -/
def hex : Nat → Nat → List Char
  | 0, _ => []
  | width + 1, n => hex width (n / 16) ++ [Nat.digitChar (n % 16)]

/-- The letter that escapes a control character, where it has one. -/
def controlLetter (c : Char) : Option Char :=
  match c.toNat with
  | 0x07 => some 'a'
  | 0x08 => some 'b'
  | 0x0C => some 'f'
  | 0x0A => some 'n'
  | 0x0D => some 'r'
  | 0x09 => some 't'
  | 0x0B => some 'v'
  | _ => none

/-- How a character is written between the quotes `quote`. -/
def escapeChar (quote c : Char) : List Char :=
  if c = quote ∨ c = '\\' then ['\\', c]
  else if isPrintable c then [c]
  else
    match controlLetter c with
    | some l => ['\\', l]
    | none =>
      if c.toNat < 0x20 ∨ c.toNat = 0x7F then '\\' :: 'x' :: hex 2 c.toNat
      else if c.toNat < 0x10000 then '\\' :: 'u' :: hex 4 c.toNat
      else '\\' :: 'U' :: hex 8 c.toNat

def escapeGlyph (quote : Char) : Glyph → List Char
  | .char c => escapeChar quote c
  | .stray b => '\\' :: 'x' :: hex 2 b.toNat

/-- A text between double quotes. -/
def text (t : Text) : String :=
  String.ofList ('"' :: t.flatMap (escapeGlyph '"') ++ ['"'])

def string (s : String) : String := text (Text.ofString s)

/-- A glyph between single quotes, as it is shown. -/
def glyph (g : Glyph) : String :=
  String.ofList ('\'' :: escapeChar '\'' g.shown ++ ['\''])

end Quoted
end BlockCalc
