import BlockCalc.Text.Glyph

/-!
# BlockCalc.History

The entries of earlier conversations, oldest first. An entry that repeats the one before it is not
kept, and only the last thousand are.
-/

namespace BlockCalc

/-! ## Lines of bytes

A reader of lines holds at most 4096 bytes. A line that is longer comes in pieces of that size; a
carriage return at the end of a piece is left to the next one, since a newline may follow it. -/

namespace Lines

def room : Nat := 4096

def newlineByte : UInt8 := 0x0A

def returnByte : UInt8 := 0x0D

def dropReturn (line : List UInt8) : List UInt8 :=
  if line.getLast? = some returnByte then line.dropLast else line

/-- A line or a piece of one, and whether it is only a piece. -/
structure Piece where
  bytes : List UInt8
  isPart : Bool
  rest : List UInt8

/-- The first line of the bytes, unless there are none. -/
def next (bytes : List UInt8) : Option Piece :=
  let line := (bytes.take room).takeWhile (· != newlineByte)
  if bytes.isEmpty then none
  else if line.length < (bytes.take room).length then
    some ⟨dropReturn line, false, bytes.drop (line.length + 1)⟩
  else if room ≤ bytes.length then
    let piece := dropReturn line
    some ⟨piece, true, bytes.drop piece.length⟩
  else some ⟨bytes, false, []⟩

/-- All lines and pieces. -/
def all : Nat → List UInt8 → List Piece
  | 0, _ => []
  | n + 1, bytes =>
    match next bytes with
    | some p => p :: all n p.rest
    | none => []

/-- The lines of the bytes, the pieces of a long line each as a line of its own. -/
def split (bytes : List UInt8) : List Text :=
  (all (bytes.length + 1) bytes).map fun p => Text.ofBytes p.bytes

end Lines

structure History where
  entries : List Text
deriving DecidableEq, Repr, Inhabited

namespace History

def empty : History := ⟨[]⟩

def limit : Nat := 1000

def keepLast (entries : List Text) : List Text := entries.drop (entries.length - limit)

/-- Adds an entry, unless it repeats the last one. -/
def add (h : History) (entry : Text) : History :=
  if h.entries.getLast? = some entry then h else ⟨keepLast (h.entries ++ [entry])⟩

def isWhole (t : Text) : Bool :=
  t.all fun
    | .char _ => true
    | .stray _ => false

/-- The history kept in a file. Reading stops at a line that is too long, or is damaged. -/
def ofText (t : Text) : History :=
  let bytes := t.toBytes
  let readable := (Lines.all (bytes.length + 1) bytes).takeWhile fun p =>
    !p.isPart && isWhole (Text.ofBytes p.bytes)
  ⟨keepLast (readable.map fun p => Text.ofBytes p.bytes)⟩

/-- The history as it is kept in a file, one entry a line. -/
def toText (h : History) : Text := h.entries.flatMap (· ++ [Text.newline])

end History
end BlockCalc
