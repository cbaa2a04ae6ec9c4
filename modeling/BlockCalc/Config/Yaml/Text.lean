import BlockCalc.Config.Yaml.Comment
import BlockCalc.Text.Numeral

/-!
# BlockCalc.Config.Yaml.Text

The text of YAML scalars: unquoted, between quotes, or as a block of lines.
-/

namespace BlockCalc
namespace Yaml

/-! ## Gaps -/

/-- Blanks and line breaks inside a scalar: blanks before the first break, that break, and the
breaks after it. -/
structure Gap where
  broken : Bool
  blanks : List Char
  first : List Char
  more : List Char

namespace Gap

def none : Gap := ⟨false, [], [], []⟩

/-- What a gap is read as: a single line break becomes a space. -/
def text (g : Gap) : List Char :=
  if g.broken then
    if g.first = ['\n'] then if g.more.isEmpty then [' '] else g.more else g.first ++ g.more
  else g.blanks

/-- Reads on over a gap. No tab may stand left of the column `indent` on a line of its own. -/
def readOn (indent : Int) : Nat → Gap → Read Gap
  | 0, _ => failure
  | n + 1, g => do
    need 1
    let p ← get
    if p.atBreak then
      need 2
      let b ← lineBreak
      readOn indent n (if g.broken then { g with more := g.more ++ b } else ⟨true, [], b, []⟩)
    else if p.atBlank then
      if g.broken ∧ p.column < indent ∧ p.rest.head? = some '\t' then failure
      skip
      readOn indent n (if g.broken then g else { g with blanks := g.blanks ++ p.rest.take 1 })
    else return g

def read (indent : Int) (g : Gap) : Read Gap := do
  readOn indent (← steps) g

end Gap

/-! ## Unquoted scalars -/

/-- Whether an unquoted scalar ends before the text. -/
def endsPlain (flow : Bool) : List Char → Bool
  | [] => true
  | c :: after =>
    isSpaceOrTab c || isBreak c || (c == ':' && atGap after) ||
      (flow && [',', '?', '[', ']', '\x7b', '\x7d'].contains c)

/-- The part of an unquoted scalar up to a blank or a mark that ends it. -/
def plainRun (flow : Bool) : Nat → Read (List Char)
  | 0 => failure
  | n + 1 => do
    match ← rest with
    | [] => return []
    | c :: after =>
      if endsPlain flow (c :: after) then return []
      else
        skip
        need 2
        return c :: (← plainRun flow n)

/-- An unquoted scalar after the text `done`, kept backwards, and the gap `g`, and whether it ended
after a line break. -/
def plainFrom (flow : Bool) (indent : Int) : Nat → List Char → Gap → Read (List Char × Bool)
  | 0, _, _ => failure
  | n + 1, done, g => do
    need 4
    let p ← get
    if p.atDocumentMark || p.rest.head? == some '#' then return (done.reverse, g.broken)
    else
      let run ← plainRun flow (← steps)
      let (done, g) :=
        if run.isEmpty then (done, g) else ((g.text ++ run).reverse ++ done, Gap.none)
      let p ← get
      if !p.atBlank && !p.atBreak then return (done.reverse, g.broken)
      else
        let g ← g.read indent
        if !flow && decide ((← get).column < indent) then return (done.reverse, g.broken)
        else plainFrom flow indent n done g

/-- An unquoted scalar, and whether it ended after a line break. -/
def plainScalar (flow : Bool) (indent : Int) : Read (List Char × Bool) := do
  plainFrom flow indent (← steps) [] Gap.none

/-! ## Quoted scalars -/

/-- The character that an escape of one letter stands for. -/
def escapeLetter (c : Char) : Option Char :=
  match c with
  | '0' => some (Char.ofNat 0)
  | 'a' => some '\x07'
  | 'b' => some '\x08'
  | 't' => some '\t'
  | '\t' => some '\t'
  | 'n' => some '\n'
  | 'v' => some '\x0b'
  | 'f' => some '\x0c'
  | 'r' => some '\r'
  | 'e' => some '\x1b'
  | ' ' => some ' '
  | '"' => some '"'
  | '\'' => some '\''
  | '\\' => some '\\'
  | 'N' => some '\u0085'
  | '_' => some '\u00a0'
  | 'L' => some '\u2028'
  | 'P' => some '\u2029'
  | _ => none

def escapeWidth (c : Char) : Option Nat :=
  match c with
  | 'x' => some 2
  | 'u' => some 4
  | 'U' => some 8
  | _ => none

def hexDigit? (c : Char) : Option Nat := (Numeral.digit? c).filter (· < 16)

/-- The character of an escape, after its backslash. -/
def escape : Read Char := do
  match ← rest with
  | [] => failure
  | c :: after =>
    match escapeWidth c with
    | none =>
      skip
      escapeLetter c
    | some width =>
      skip
      need width
      if after.length < width then failure
      let some ds := (after.take width).mapM hexDigit? | failure
      let n := ds.foldl (fun n d => n * 16 + d) 0
      if n.isValidChar then
        skipMany width
        return Char.ofNat n
      else failure

/-- The part of a quoted scalar up to a blank or the end of the quotation, and whether it ended with
a line break that was escaped. -/
def quotedRun (quote : Char) : Nat → Read (List Char × Bool)
  | 0 => failure
  | n + 1 => do
    let more (width : Nat) (c : Char) : Read (List Char × Bool) := do
      skipMany width
      need 2
      let (cs, escaped) ← quotedRun quote n
      return (c :: cs, escaped)
    match ← rest with
    | [] => return ([], false)
    | c :: after =>
      if isSpaceOrTab c || isBreak c then return ([], false)
      else if c = quote then
        if quote = '\'' ∧ after.head? = some '\'' then more 2 '\'' else return ([], false)
      else if quote = '"' ∧ c = '\\' then
        if after.head?.any isBreak then
          need 3
          skip
          let _ ← lineBreak
          return ([], true)
        else
          skip
          more 0 (← escape)
      else more 1 c

/-- A quoted scalar after the text `done`, kept backwards, with the quote at its end. -/
def quotedFrom (quote : Char) : Nat → List Char → Read (List Char)
  | 0, _ => failure
  | n + 1, done => do
    need 4
    let p ← get
    if p.atDocumentMark || p.rest.isEmpty then failure
    let (run, escaped) ← quotedRun quote (← steps)
    need 1
    if (← rest).head? = some quote then
      skip
      return done.reverse ++ run
    else
      let g ← Gap.read 0 { Gap.none with broken := escaped }
      quotedFrom quote n ((run ++ g.text).reverse ++ done)

/-- A quoted scalar, from its quote on. -/
def quotedScalar (quote : Char) : Read (List Char) := do
  skip
  quotedFrom quote (← steps) []

/-! ## Blocks of lines -/

/-- The empty lines before a line of a block scalar. Without an indentation, the deepest of the
empty lines and the first other line give it. -/
def blockGap (indent : Nat) : Nat → Nat → List Char → Read (List Char × Nat)
  | 0, _, _ => failure
  | n + 1, deepest, breaks => do
    let p ← get
    let room := if indent = 0 then p.size + 1 else indent - p.column
    let _ ← spanAtMost (· == ' ') room
    need 1
    let p ← get
    let deepest := max deepest p.column
    if (indent = 0 ∨ p.column < indent) ∧ p.rest.head? = some '\t' then failure
    else if p.atBreak then
      need 2
      let b ← lineBreak
      blockGap indent n deepest (breaks ++ b)
    else return (breaks, deepest)

/-- The lines of a block scalar: the text so far, kept backwards, the break after the last line, and
the breaks after that one. -/
structure BlockLines where
  text : List Char
  first : List Char
  more : List Char
  afterBlank : Bool

/-- Reads the lines that have the indentation of a block scalar. -/
def blockLines (literal : Bool) (indent : Nat) : Nat → BlockLines → Read BlockLines
  | 0, _ => failure
  | n + 1, b => do
    need 1
    let p ← get
    if p.column ≠ indent ∨ p.rest.isEmpty then return b
    else
      let joined :=
        if !literal && !b.afterBlank && !p.atBlank && b.first == ['\n'] then
          if b.more.isEmpty then [' '] else []
        else b.first
      let line ← span fun c => !isBreak c
      need 2
      let first ← lineBreak
      let (more, _) ← blockGap indent (← steps) 0 []
      let text := (joined ++ b.more ++ line).reverse ++ b.text
      blockLines literal indent n ⟨text, first, more, p.atBlank⟩

/-- What is kept of the breaks at the end of a block scalar. -/
inductive Chomping where
  | clip
  | strip
  | keep
deriving DecidableEq

def chomping? (c : Char) : Option Chomping :=
  if c = '+' then some .keep else if c = '-' then some .strip else none

/-- The mark for what is kept at the end, if it is there. -/
def chomping : Read (Option Chomping) := do
  need 1
  match (← rest).head?.bind chomping? with
  | none => return none
  | some k =>
    skip
    return some k

/-- The digit for the depth of a block scalar, zero where there is none. -/
def blockDepth : Read Nat := do
  need 1
  match (← rest).head?.filter (fun c => '0' ≤ c && c ≤ '9') with
  | none => return 0
  | some c =>
    if c = '0' then failure
    skip
    return c.toNat - '0'.toNat

/-- The marks after the indicator of a block scalar, in either order. -/
def blockHeader : Read (Chomping × Nat) := do
  match ← chomping with
  | some k => return (k, ← blockDepth)
  | none =>
    match ← blockDepth with
    | 0 => return (.clip, 0)
    | depth => return ((← chomping).getD .clip, depth)

/-- The rest of a line that holds no more than a comment, and its end. -/
def lineEnd : Read Unit := do
  skipBlanks
  if (← rest).head? = some '#' then skipLine
  let p ← get
  if p.atBreak then
    need 2
    let _ ← lineBreak
  else if !p.rest.isEmpty then failure

/-- A block scalar, from its indicator on, inside a block of the given indentation. -/
def blockScalar (literal : Bool) (outer : Int) : Read (List Char) := do
  skip
  let (kept, depth) ← blockHeader
  lineEnd
  let given := if depth = 0 then 0 else (max outer 0).toNat + depth
  let (breaks, deepest) ← blockGap given (← steps) 0 []
  let indent := if given = 0 then max (max deepest (outer + 1).toNat) 1 else given
  let b ← blockLines literal indent (← steps) ⟨[], [], breaks, false⟩
  match kept with
  | .strip => return b.text.reverse
  | .clip => return b.text.reverse ++ b.first
  | .keep => return b.text.reverse ++ b.first ++ b.more

end Yaml
end BlockCalc
