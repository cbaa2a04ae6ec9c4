import BlockCalc.Text.Cells

/-!
# BlockCalc.Text.Terminal

The room a text takes on a terminal that obeys escape sequences: the sequences themselves take
none. Sequences are recognised byte by byte, as a terminal receives them, and an unfinished one
hides the rest of the text.
-/

namespace BlockCalc

/-- What a terminal is in the middle of. -/
inductive Terminal where
  | ground
  | cluster (first : BreakClass) (state : ClusterState) (cells : Nat)
  | escape
  | escapeMore
  | control
  | controlParam
  | controlMore
  | device
  | deviceParam
  | deviceMore
  | deviceString
  | systemString
  | otherString
deriving DecidableEq, Repr, Inhabited

namespace Terminal

/-- Where a byte leads from nearly every state: the cancelling and escaping control characters,
and the control characters of the upper half. -/
def anywhere (b : UInt8) : Option Terminal :=
  if b = 0x1B then some .escape
  else if b = 0x90 then some .device
  else if b = 0x9B then some .control
  else if b = 0x9D then some .systemString
  else if b = 0x98 ∨ b = 0x9E ∨ b = 0x9F then some .otherString
  else if b = 0x18 ∨ b = 0x1A ∨ (0x80 ≤ b ∧ b ≤ 0x9F) then some .ground
  else none

/-- The other control characters, which a sequence passes over. -/
def isPassedOver (b : UInt8) : Bool := b < 0x20 || b == 0x7F

def isIntermediate (b : UInt8) : Bool := 0x20 ≤ b && b ≤ 0x2F

def isParameter (b : UInt8) : Bool := 0x30 ≤ b && b ≤ 0x3F

def isFinal (b : UInt8) : Bool := 0x40 ≤ b && b ≤ 0x7E

/-- Where a byte leads that `anywhere` does not settle. -/
def within (s : Terminal) (b : UInt8) : Terminal :=
  match s with
  | .ground => .ground
  | .cluster _ _ _ => .ground
  | .escape =>
    if isPassedOver b then .escape
    else if isIntermediate b then .escapeMore
    else if b = 0x50 then .device
    else if b = 0x5B then .control
    else if b = 0x5D then .systemString
    else if b = 0x58 ∨ b = 0x5E ∨ b = 0x5F then .otherString
    else .ground
  | .escapeMore => if isPassedOver b || isIntermediate b then .escapeMore else .ground
  | .control =>
    if isPassedOver b then .control
    else if isIntermediate b then .controlMore
    else if isParameter b then .controlParam
    else .ground
  | .controlParam =>
    if isPassedOver b || isParameter b then .controlParam
    else if isIntermediate b then .controlMore
    else .ground
  | .controlMore => if isPassedOver b || isIntermediate b then .controlMore else .ground
  | .device =>
    if 0x08 ≤ b ∧ b ≤ 0x0D then .deviceString
    else if isPassedOver b then .device
    else if isIntermediate b then .deviceMore
    else if isParameter b then .deviceParam
    else if isFinal b then .deviceString
    else .ground
  | .deviceParam =>
    if isPassedOver b || isParameter b then .deviceParam
    else if isIntermediate b then .deviceMore
    else if isFinal b then .deviceString
    else .ground
  | .deviceMore =>
    if isPassedOver b || isIntermediate b then .deviceMore
    else if isParameter b || isFinal b then .deviceString
    else .ground
  | .deviceString => .deviceString
  | .systemString => .systemString
  | .otherString => if b < 0x80 then .otherString else .ground

/-- Inside a string of a device or a system command, bytes of the upper half are data. -/
def takesData : Terminal → Bool
  | .deviceString => true
  | .systemString => true
  | _ => false

/-- The state after a byte. -/
def afterByte (s : Terminal) (b : UInt8) : Terminal :=
  if s.takesData then
    if b = 0x1B then .escape
    else if b = 0x9C ∨ b = 0x18 ∨ b = 0x1A then .ground
    else if s = .systemString ∧ b = 0x07 then .ground
    else s
  else if s = .device ∧ b = 0x1B then .deviceString
  else
    match anywhere b with
    | some t => t
    | none => within s b

/-- A glyph of the lower half moves the terminal on, and takes a cell if it is shown. -/
def afterAscii (s : Terminal) (b : UInt8) : Nat × Terminal :=
  (if s = .ground ∧ 0x20 ≤ b ∧ b ≤ 0x7E then 1 else 0, s.afterByte b)

/-- Whether a glyph begins with the first byte of a character of the upper half. -/
def beginsCluster : Glyph → Bool
  | .char c => 0x80 ≤ c.toNat
  | .stray b => 0xC2 ≤ b && b ≤ 0xF4

/-- The cells a glyph brings and the state after it, outside a cluster. -/
def afterGlyph (s : Terminal) (g : Glyph) : Nat × Terminal :=
  if beginsCluster g && !s.takesData then
    let c := BreakClass.ofCode g.code
    (0, .cluster c (.start c) (Cells.ofCode g.code c))
  else
    match g.bytes with
    | [b] => s.afterAscii b
    | bs => (0, bs.foldl afterByte s)

/-- The cells that are settled by a glyph, and the state after it. -/
def step (s : Terminal) (g : Glyph) : Nat × Terminal :=
  match s with
  | .cluster first state cells =>
    let c := BreakClass.ofCode g.code
    if state.breaks c then
      let r := afterGlyph .ground g
      (cells + r.1, r.2)
    else (0, .cluster first (state.next c) (Cells.widen first cells g.code c))
  | s => s.afterGlyph g

/-- The cells of a text, from a state on. -/
def cells : Terminal → Text → Nat
  | .cluster _ _ n, [] => n
  | _, [] => 0
  | s, g :: rest =>
    let r := s.step g
    r.1 + cells r.2 rest

end Terminal

/-- The cells a line takes on a terminal. -/
def Text.width (t : Text) : Nat := Terminal.cells .ground t

end BlockCalc
