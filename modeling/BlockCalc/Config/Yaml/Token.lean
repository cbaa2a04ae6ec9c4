import BlockCalc.Config.Yaml.Text
import BlockCalc.Text.Decimal
import BlockCalc.Text.Glyph

/-!
# BlockCalc.Config.Yaml.Token

The tokens of a YAML stream, and those of them that are names, tags or directives.
-/

namespace BlockCalc
namespace Yaml

inductive Token where
  | streamEnd
  | version (major minor : Nat)
  | tagHandle (handle uri : String)
  | documentStart
  | documentEnd
  | blockSequence
  | blockMapping
  | blockEnd
  | flowSequence
  | flowSequenceEnd
  | flowMapping
  | flowMappingEnd
  | blockEntry
  | flowEntry
  | key
  | value
  | alias (name : String)
  | anchor (name : String)
  | tag (handle suffix : String)
  | scalar (text : String) (plain : Bool)
deriving DecidableEq, Repr, Inhabited

/-- The name of an anchor or an alias, from its indicator on. -/
def anchorName : Read String := do
  skip
  let name ← span isNameChar
  let cs ← rest
  if name.isEmpty then failure
  if atGap cs || cs.head?.any ("?:,]\x7d%@\x60".toList.contains ·) then
    return String.ofList name
  else failure

/-! ## Tags -/

def isTagChar (c : Char) : Bool := isNameChar c || ";/?:@&=+$.,!~*'()[]".toList.contains c

/-- The byte of a percent sign and two hexadecimal digits. -/
def escapedByte : Read UInt8 := do
  need 3
  match ← rest with
  | '%' :: a :: b :: _ =>
    let some a := hexDigit? a | failure
    let some b := hexDigit? b | failure
    skipMany 3
    return UInt8.ofNat (a * 16 + b)
  | _ => failure

/-- Continuation bytes, `n` of them. -/
def escapedTail : Nat → Read (List UInt8)
  | 0 => return []
  | n + 1 => do
    let b ← escapedByte
    if (Text.continuation b).isNone then failure
    return b :: (← escapedTail n)

/-- The bytes of an escaped character; the first says how many follow it. -/
def escapedChar : Read (List UInt8) := do
  let b ← escapedByte
  let some (width, _) := Text.lead b | failure
  return b :: (← escapedTail width)

def tagBytes : Nat → Read (List UInt8)
  | 0 => failure
  | n + 1 => do
    need 1
    match ← rest with
    | [] => return []
    | c :: _ =>
      if c = '%' then
        let bs ← escapedChar
        return bs ++ (← tagBytes n)
      else if isTagChar c then
        skip
        return UInt8.ofNat c.toNat :: (← tagBytes n)
      else return []

/-- The text of a tag, with its escapes undone. -/
def tagText : Read String := do
  let bytes ← tagBytes (← steps)
  return Text.toString (Text.ofBytes bytes)

/-- The text of a tag that must not be empty. -/
def someTagText : Read String := do
  let s ← tagText
  if s = "" then failure
  return s

/-- An exclamation mark, a name, and an exclamation mark if one follows. -/
def tagHandle : Read (List Char × Bool) := do
  need 1
  if (← rest).head? ≠ some '!' then failure
  skip
  let name ← span isNameChar
  if (← rest).head? = some '!' then
    skip
    return (name, true)
  else return (name, false)

/-- The handle and the rest of a tag. -/
def tagParts : Read (String × String) := do
  need 2
  let (handle, suffix) ←
    if (← rest).take 2 = ['!', '<'] then do
      skipMany 2
      let uri ← someTagText
      if (← rest).head? ≠ some '>' then failure
      skip
      pure ("", uri)
    else do
      match ← tagHandle with
      | (name, true) => pure (String.ofList ('!' :: name ++ ['!']), ← someTagText)
      | (name, false) =>
        let suffix := String.ofList name ++ (← tagText)
        pure (if suffix = "" then ("", "!") else ("!", suffix))
  need 1
  if atGap (← rest) then return (handle, suffix) else failure

/-! ## Directives -/

/-- A number of one or two digits. -/
def versionNumber : Read Nat := do
  let ds ← span Decimal.isDigit
  if ds.isEmpty ∨ 2 < ds.length then failure
  return Decimal.number ds

/-- What follows the name of a directive. -/
def directiveValue (name : String) : Read Token := do
  skipBlanks
  if name = "YAML" then
    let major ← versionNumber
    if (← rest).head? ≠ some '.' then failure
    skip
    return .version major (← versionNumber)
  else if name = "TAG" then
    let (name, closed) ← tagHandle
    if !closed && !name.isEmpty then failure
    need 1
    if !(← get).atBlank then failure
    skipBlanks
    let uri ← someTagText
    if !atGap (← rest) then failure
    return .tagHandle (String.ofList ('!' :: name ++ (if closed then ['!'] else []))) uri
  else failure

/-- A directive, from its indicator to the end of its line. -/
def directive : Read Token := do
  skip
  let name ← span isNameChar
  if !atGap (← rest) then failure
  let t ← directiveValue (String.ofList name)
  lineEnd
  return t

end Yaml
end BlockCalc
