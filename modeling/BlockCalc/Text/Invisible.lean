import BlockCalc.Text.Glyph
import BlockCalc.Text.Interval

/-!
# BlockCalc.Text.Invisible

The characters that show nothing of their own: control characters, format characters and those
left to private use (Unicode 17, categories Cc, Cf and Co). A prompt must have none of them.
-/

namespace BlockCalc

def Invisible.table : Intervals := [
  (0x0, 0x1F), (0x7F, 0x9F), (0xAD, 0xAD), (0x600, 0x605), (0x61C, 0x61C), (0x6DD, 0x6DD),
  (0x70F, 0x70F), (0x890, 0x891), (0x8E2, 0x8E2), (0x180E, 0x180E), (0x200B, 0x200F),
  (0x202A, 0x202E), (0x2060, 0x2064), (0x2066, 0x206F), (0xE000, 0xF8FF), (0xFEFF, 0xFEFF),
  (0xFFF9, 0xFFFB), (0x110BD, 0x110BD), (0x110CD, 0x110CD), (0x13430, 0x1343F),
  (0x1BCA0, 0x1BCA3), (0x1D173, 0x1D17A), (0xE0001, 0xE0001), (0xE0020, 0xE007F),
  (0xF0000, 0xFFFFD), (0x100000, 0x10FFFD)]

def Glyph.isInvisible (g : Glyph) : Bool := Invisible.table.covers g.code

end BlockCalc
