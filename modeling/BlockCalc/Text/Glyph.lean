/-!
# BlockCalc.Text.Glyph

Source text as the reader of a program sees it: a sequence of *glyphs*. A glyph is a character,
or a single byte that is part of no UTF-8 character. Columns count glyphs, so a damaged file still
has well defined positions, and no byte of it is lost: `Text.toBytes` undoes `Text.ofBytes`.
-/

namespace BlockCalc

/-- A character of the text, or a byte that belongs to no character. -/
inductive Glyph where
  | char (c : Char)
  | stray (b : UInt8)
deriving DecidableEq, Repr, Inhabited

abbrev Text := List Glyph

namespace Glyph

/-- The character shown for a glyph; a stray byte is shown as U+FFFD. -/
def shown : Glyph → Char
  | .char c => c
  | .stray _ => '�'

/-- The code point a glyph is reported under. -/
def code (g : Glyph) : Nat := g.shown.toNat

def bytes : Glyph → List UInt8
  | .char c => String.utf8EncodeChar c
  | .stray b => [b]

end Glyph

namespace Text

def ofString (s : String) : Text := s.toList.map .char

/-- The text with every stray byte shown as U+FFFD. -/
def toString (t : Text) : String := String.ofList (t.map Glyph.shown)

def toBytes (t : Text) : List UInt8 := t.flatMap Glyph.bytes

def newline : Glyph := .char '\n'

/-- The pieces between the occurrences of `sep`; one more than there are occurrences. -/
def splitAt (sep : Glyph) : Text → List Text
  | [] => [[]]
  | g :: rest =>
    if g = sep then [] :: splitAt sep rest
    else
      match splitAt sep rest with
      | [] => [[g]]
      | piece :: pieces => (g :: piece) :: pieces

/-- The lines of a text: its pieces between newlines. -/
def lines (t : Text) : List Text := splitAt newline t

def join (sep : Text) (pieces : List Text) : Text := sep.intercalate pieces

def spaces (n : Nat) : Text := List.replicate n (.char ' ')

/-! ## Reading UTF-8 -/

/-- The six payload bits of a continuation byte. -/
def continuation (b : UInt8) : Option Nat :=
  if 0x80 ≤ b ∧ b ≤ 0xBF then some (b.toNat - 0x80) else none

/-- The code point of a sequence of `k` continuation bytes after the payload `acc` of the lead. -/
def continued : Nat → Nat → List UInt8 → Option Nat
  | 0, acc, _ => some acc
  | _ + 1, _, [] => none
  | k + 1, acc, b :: rest =>
    match continuation b with
    | some bits => continued k (acc * 64 + bits) rest
    | none => none

/-- How many bytes follow the lead byte `b` of a sequence, the payload of `b`, and the least
code point that needs a sequence of that length. -/
def lead (b : UInt8) : Option (Nat × Nat × Nat) :=
  if b < 0x80 then some (0, b.toNat, 0)
  else if 0xC0 ≤ b ∧ b < 0xE0 then some (1, b.toNat - 0xC0, 0x80)
  else if 0xE0 ≤ b ∧ b < 0xF0 then some (2, b.toNat - 0xE0, 0x800)
  else if 0xF0 ≤ b ∧ b < 0xF8 then some (3, b.toNat - 0xF0, 0x10000)
  else none

/-- The character that the bytes `b :: rest` begin with, and the number of bytes of `rest` it
takes. Overlong forms, surrogates and values above U+10FFFF are no characters. -/
def firstChar (b : UInt8) (rest : List UInt8) : Option (Char × Nat) :=
  match lead b with
  | none => none
  | some (k, payload, least) =>
    match continued k payload rest with
    | none => none
    | some n => if least ≤ n ∧ n.isValidChar then some (Char.ofNat n, k) else none

/-- Reads bytes as UTF-8. A byte that begins no character stands alone, and reading goes on with
the byte after it. -/
def ofBytes : List UInt8 → Text
  | [] => []
  | b :: rest =>
    match firstChar b rest with
    | some (c, k) => .char c :: ofBytes (rest.drop k)
    | none => .stray b :: ofBytes rest
termination_by bs => bs.length
decreasing_by
  · simp only [List.length_drop, List.length_cons]; omega
  · simp

end Text
end BlockCalc
