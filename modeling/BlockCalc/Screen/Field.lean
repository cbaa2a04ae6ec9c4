import BlockCalc.Text.Blank
import BlockCalc.Text.Cells
import BlockCalc.Text.Panel

/-!
# BlockCalc.Screen.Field

A one-line text field with a cursor. When the value has no room in the field, a part of it is
shown that holds the cursor; the part moves only when the cursor would leave it.
-/

namespace BlockCalc

structure Field where
  value : List Char
  cursor : Nat
  /-- The first character that is shown. -/
  first : Nat
  /-- The first character after those that are shown. -/
  last : Nat
  width : Int
  prompt : Text
  placeholder : List Char
deriving DecidableEq, Repr, Inhabited

namespace Field

/-- The most characters a field holds. -/
def capacity : Nat := 500

def ofPrompt (prompt : Text) (placeholder : String) : Field :=
  ⟨[], 0, 0, 0, 60, prompt, placeholder.toList⟩

/-- What a field takes of a text: tabs and line ends become spaces, other control characters and
the replacement character are dropped. -/
def sanitize (t : Text) : List Char :=
  t.filterMap fun g =>
    let c := g.shown
    if c = '\t' ∨ c = '\n' ∨ c = '\r' then some ' '
    else if c.toNat < 0x20 ∨ (0x7F ≤ c.toNat ∧ c.toNat ≤ 0x9F) ∨ c = '�' then none
    else some c

def cellsOf (cs : List Char) : Nat := Text.cells (cs.map .char)

/-- How many characters are shown from the first on, in a field of the given width. -/
def fitRight (width : Int) : List Char → Int → Nat
  | [], _ => 0
  | c :: rest, used =>
    if used ≤ width then
      let used := used + Cells.ofCharAlone c
      if used ≤ width + 1 then fitRight width rest used + 1 else 0
    else 0

/-- How many characters are shown before the cursor, given those before it from the nearest to
the farthest. The farthest one is never counted. -/
def fitLeft (width : Int) : List Char → Int → Nat
  | c :: d :: rest, used =>
    if used < width then
      let used := used + Cells.ofCharAlone c
      if used ≤ width then fitLeft width (d :: rest) used + 1 else 0
    else 0
  | _, _ => 0

/-- Chooses the part that is shown. -/
def scroll (f : Field) : Field :=
  if f.width ≤ 0 ∨ cellsOf f.value ≤ f.width then { f with first := 0, last := f.value.length }
  else
    let last := min f.last f.value.length
    if f.cursor < f.first then
      { f with first := f.cursor, last := f.cursor + fitRight f.width (f.value.drop f.cursor) 0 }
    else if last ≤ f.cursor then
      let shown := fitLeft f.width (f.value.take f.cursor).reverse 0
      { f with first := f.cursor - shown, last := f.cursor }
    else { f with last := last }

/-- Moves the cursor, at most to the end. -/
def moveTo (f : Field) (n : Nat) : Field := scroll { f with cursor := min n f.value.length }

def moveToEnd (f : Field) : Field := f.moveTo f.value.length

/-- Takes a new value. The cursor goes to its end from an empty field or from beyond the end, and
otherwise stays. -/
def replace (f : Field) (value : List Char) : Field :=
  let next := { f with value := value.take capacity }
  if (f.cursor = 0 ∧ f.value.isEmpty) ∨ next.value.length < f.cursor then
    scroll next.moveToEnd
  else scroll next

def set (f : Field) (t : Text) : Field := f.replace (sanitize t)

/-- Puts a text at the cursor, as far as there is room. -/
def insert (f : Field) (t : Text) : Field :=
  let room := capacity - f.value.length
  if room = 0 then f.scroll
  else
    let typed := (sanitize t).take room
    let value := f.value.take f.cursor ++ typed ++ f.value.drop f.cursor
    let cursor := f.cursor + typed.length
    let next := { f with value := value, cursor := cursor }
    if cursor = 0 ∧ f.value.isEmpty then scroll (scroll next.moveToEnd) else scroll (scroll next)

/-- The editing keys. Those that move or delete by words are left out: what they do to the value and
the cursor is what some of these do one after another. -/
inductive Edit where
  | left
  | right
  | home
  | toEnd
  | backspace
  | delete
  | deleteBefore
deriving DecidableEq, Repr, Inhabited

def edit (f : Field) : Edit → Field
  | .left => scroll (if 0 < f.cursor then f.moveTo (f.cursor - 1) else f)
  | .right => scroll (if f.cursor < f.value.length then f.moveTo (f.cursor + 1) else f)
  | .home => scroll (f.moveTo 0)
  | .toEnd => scroll f.moveToEnd
  | .backspace =>
    let next := { f with value := f.value.take (f.cursor - 1) ++ f.value.drop f.cursor }
    scroll (if 0 < f.cursor then next.moveTo (f.cursor - 1) else f)
  | .delete =>
    scroll { f with value := f.value.take f.cursor ++ f.value.drop (f.cursor + 1) }
  | .deleteBefore => scroll ({ f with value := f.value.drop f.cursor, first := 0 }.moveTo 0)

/-! ## Showing a field -/

/-- The placeholder with its first character under the cursor, cut or filled to the width. -/
def placeholderText (f : Field) : List Char :=
  if f.width < 1 then f.placeholder.take 1
  else
    let spare := f.width - f.placeholder.length + 1
    if 0 ≤ spare then f.placeholder ++ List.replicate spare.toNat ' '
    else f.placeholder.take (f.width + 1).toNat

/-- The shown part of the value, a space for a cursor at its end, and spaces up to the width. -/
def valueText (f : Field) : List Char :=
  let shown := (f.value.take f.last).drop f.first
  let place := f.cursor - f.first
  let used := cellsOf shown
  let mark := if place < shown.length then [] else [' ']
  let filling :=
    if 0 < f.width ∧ used ≤ f.width then
      let n := (f.width - used).toNat
      if place < shown.length then n + 1 else n
    else 0
  shown ++ mark ++ List.replicate filling ' '

def view (f : Field) : Text :=
  Text.display f.prompt ++
    (if f.value.isEmpty then f.placeholderText else f.valueText).map .char

end Field
end BlockCalc
