import BlockCalc.Text.Calendar

/-!
# BlockCalc.Config.Toml.Item

The lines of a TOML 1.0 document: pairs of a key and a value, and headers of tables. Numbers other
than integers, truth values and times are checked but not kept.
-/

namespace BlockCalc
namespace Toml

/-- The names of a dotted key. -/
abbrev Key := List String

inductive Value where
  | string (s : String)
  | integer (n : Int)
  | scalar
  | array (items : List Value)
  | table (pairs : List (Key × Value))
deriving Inhabited

/-- One line of a document. -/
inductive Item where
  | pair (key : Key) (value : Value)
  | header (key : Key)
  | arrayHeader (key : Key)

abbrev Read (α : Type) := Option (α × List Char)

/-! ## Characters -/

def isControl (c : Char) : Bool :=
  (c.toNat < 0x20 || c.toNat == 0x7F) && c != '\t' && c != '\n' && c != '\r'

/-- No control characters, and carriage returns only before newlines. -/
def isClean : List Char → Bool
  | [] => true
  | c :: rest =>
    if c = '\r' then
      match rest with
      | '\n' :: _ => isClean rest
      | _ => false
    else !isControl c && isClean rest

def isSpace (c : Char) : Bool := c == ' ' || c == '\t'

def isNewline (c : Char) : Bool := c == '\n' || c == '\r'

def skipSpaces (cs : List Char) : List Char := cs.dropWhile isSpace

def isBare (c : Char) : Bool :=
  ('A' ≤ c && c ≤ 'Z') || ('a' ≤ c && c ≤ 'z') || ('0' ≤ c && c ≤ '9') || c == '_' || c == '-'

def skipComment (cs : List Char) : List Char := cs.dropWhile fun c => !isNewline c

/-- Spaces, line ends and comments. -/
def skipBlankLines : Nat → List Char → List Char
  | 0, cs => cs
  | _ + 1, [] => []
  | n + 1, c :: rest =>
    if isSpace c || isNewline c then skipBlankLines n rest
    else if c = '#' then skipBlankLines n (skipComment rest)
    else c :: rest

def skipBlank (cs : List Char) : List Char := skipBlankLines (cs.length + 1) cs

/-! ## Strings -/

def hexValue : List Char → Option Nat
  | cs => cs.foldl (fun acc c =>
      match acc, Numeral.digit? c with
      | some n, some d => if d < 16 then some (n * 16 + d) else none
      | _, _ => none) (some 0)

/-- The character of an escape with `width` hexadecimal digits. -/
def codeEscape (width : Nat) (cs : List Char) : Read Char :=
  if cs.length < width then none
  else
    match hexValue (cs.take width) with
    | some n => if n.isValidChar then some (Char.ofNat n, cs.drop width) else none
    | none => none

/-- The character of an escape, after the backslash. -/
def escape : List Char → Read Char
  | 'b' :: rest => some ('\x08', rest)
  | 't' :: rest => some ('\t', rest)
  | 'n' :: rest => some ('\n', rest)
  | 'f' :: rest => some ('\x0c', rest)
  | 'r' :: rest => some ('\r', rest)
  | '"' :: rest => some ('"', rest)
  | '\\' :: rest => some ('\\', rest)
  | 'u' :: rest => codeEscape 4 rest
  | 'U' :: rest => codeEscape 8 rest
  | _ => none

/-- The rest of a basic string on one line. -/
def basicString : Nat → List Char → List Char → Read String
  | 0, _, _ => none
  | _ + 1, _, [] => none
  | n + 1, done, c :: rest =>
    if c = '"' then some (String.ofList done.reverse, rest)
    else if isNewline c then none
    else if c = '\\' then
      match escape rest with
      | some (d, rest) => basicString n (d :: done) rest
      | none => none
    else basicString n (c :: done) rest

def literalString (cs : List Char) : Read String :=
  let body := cs.takeWhile fun c => c != '\'' && !isNewline c
  match cs.drop body.length with
  | '\'' :: rest => some (String.ofList body, rest)
  | _ => none

/-- At least three quotes end a string of several lines: the last three close it, and those before
them, at most `room`, are part of it. -/
def closing (quote : Char) (room : Nat) (cs : List Char) : Option (List Char × List Char) :=
  let run := cs.takeWhile (· == quote)
  if run.length ≤ room + 3 then some (run.drop 3, cs.drop run.length) else none

def dropFirstNewline : List Char → List Char
  | '\n' :: rest => rest
  | '\r' :: '\n' :: rest => rest
  | cs => cs

/-- A backslash at the end of a line takes away the line end and the blanks after it. -/
def lineEscape (cs : List Char) : Option (List Char) :=
  match skipSpaces cs with
  | c :: rest =>
    if isNewline c then some (rest.dropWhile fun c => isSpace c || isNewline c) else none
  | [] => none

/-- The rest of a basic string of several lines. Two quotes may stand before the three that close
it, and three after a backslash that is escaped. -/
def longString : Nat → Bool → List Char → List Char → Read String
  | 0, _, _, _ => none
  | _ + 1, _, _, [] => none
  | n + 1, afterBackslash, done, c :: rest =>
    if (c :: rest).take 3 = ['"', '"', '"'] then
      (closing '"' (if afterBackslash then 3 else 2) (c :: rest)).map fun (quotes, after) =>
        (String.ofList (done.reverse ++ quotes), after)
    else if c = '\\' then
      match lineEscape rest with
      | some rest => longString n false done rest
      | none =>
        match escape rest with
        | some (d, after) => longString n (d == '\\' && rest.head? == some '\\') (d :: done) after
        | none => none
    else longString n false (c :: done) rest

/-- The rest of a literal string of several lines. -/
def longLiteral : Nat → List Char → List Char → Read String
  | 0, _, _ => none
  | _ + 1, _, [] => none
  | n + 1, done, c :: rest =>
    if (c :: rest).take 3 = ['\'', '\'', '\''] then
      (closing '\'' 2 (c :: rest)).map fun (quotes, after) =>
        (String.ofList (done.reverse ++ quotes), after)
    else longLiteral n (c :: done) rest

/-- A string of any kind, from its first quote on. -/
def string (cs : List Char) : Read String :=
  match cs with
  | '"' :: '"' :: '"' :: rest => longString (cs.length + 1) false [] (dropFirstNewline rest)
  | '\'' :: '\'' :: '\'' :: rest => longLiteral (cs.length + 1) [] (dropFirstNewline rest)
  | '"' :: rest => basicString (cs.length + 1) [] rest
  | '\'' :: rest => literalString rest
  | _ => none

/-! ## Numbers and times -/

open Decimal (isDigit)
open Calendar (after fixedDigits)

/-- Every underscore stands after a digit, and the last character is one. -/
def underscoresOk (cs : List Char) : Bool :=
  let isHex (c : Char) : Bool := (Numeral.digit? c).any (· < 16)
  (cs.foldl (fun (ok, after) c => (ok && (c != '_' || after), isHex c)) (true, false)) ==
    (true, true)

def unsignedPart (cs : List Char) : List Char :=
  match cs with
  | '+' :: rest => rest
  | '-' :: rest => rest
  | cs => cs

def hasLeadingZero (cs : List Char) : Bool :=
  match unsignedPart cs with
  | '0' :: c :: _ => isDigit c || c == '_'
  | _ => false

def isInteger (cs : List Char) : Bool :=
  let digitsOf (p : Char → Bool) (ds : List Char) : Bool :=
    !ds.isEmpty && ds.all (fun c => p c || c == '_')
  let shape :=
    match cs with
    | '0' :: 'x' :: ds => digitsOf (fun c => (Numeral.digit? c).any (· < 16)) ds
    | '0' :: 'o' :: ds => digitsOf (fun c => '0' ≤ c && c ≤ '7') ds
    | '0' :: 'b' :: ds => digitsOf (fun c => c == '0' || c == '1') ds
    | cs => digitsOf isDigit (unsignedPart cs)
  shape && underscoresOk cs && !hasLeadingZero cs

/-- A run of digits and underscores; what is left must not begin with one. -/
def digitRun (cs : List Char) : List Char × List Char :=
  cs.span fun c => isDigit c || c == '_'

def runOk (run : List Char) : Bool := !run.isEmpty && underscoresOk run

def exponentOk : List Char → Bool
  | [] => true
  | e :: cs =>
    (e == 'e' || e == 'E') &&
      match digitRun (unsignedPart cs) with
      | (run, rest) => runOk run && rest.isEmpty

def isFloat (cs : List Char) : Bool :=
  let body := unsignedPart cs
  if body = ['i', 'n', 'f'] || body = ['n', 'a', 'n'] then true
  else
    match digitRun body with
    | (whole, rest) =>
      let (fractionOk, tail) :=
        match rest with
        | '.' :: more =>
          match digitRun more with
          | (fraction, tail) => (runOk fraction, tail)
        | _ => (!rest.isEmpty, rest)
      runOk whole && !hasLeadingZero whole && fractionOk && exponentOk tail &&
        (Decimal.parse (cs.filter (· != '_'))).any (·.isFinite)

/-- A date; what follows it. -/
def date (cs : List Char) : Option (List Char) := do
  let (y, cs) ← fixedDigits 4 cs
  let cs ← after '-' cs
  let (m, cs) ← fixedDigits 2 cs
  let cs ← after '-' cs
  let (d, cs) ← fixedDigits 2 cs
  if Calendar.isDate y m d then some cs else none

/-- A time of day with seconds; what follows it. -/
def time (cs : List Char) : Option (List Char) := do
  let (h, cs) ← fixedDigits 2 cs
  let cs ← after ':' cs
  let (m, cs) ← fixedDigits 2 cs
  let cs ← after ':' cs
  let (s, cs) ← fixedDigits 2 cs
  if Calendar.isTime h m s then
    match cs with
    | '.' :: rest =>
      let fraction := rest.takeWhile isDigit
      if fraction.isEmpty then none else some (rest.drop fraction.length)
    | cs => some cs
  else none

/-- Nothing, or the distance from universal time. -/
def offsetOk (cs : List Char) : Bool :=
  cs.isEmpty || cs == ['Z'] || cs == ['z'] || Calendar.isOffset cs

def isTime (cs : List Char) : Bool :=
  match date cs with
  | some [] => true
  | some (t :: rest) =>
    (t == 'T' || t == 't' || t == ' ') &&
      match time rest with
      | some after => offsetOk after
      | none => false
  | none => time cs == some []

/-- The characters of a number, a time or a truth value. A time may stand after its date and a
space. -/
def bareWord (cs : List Char) : List Char × List Char :=
  let isPart (c : Char) : Bool := isBare c || c == '+' || c == '.' || c == ':'
  let (word, rest) := cs.span isPart
  match date word, rest with
  | some [], ' ' :: d :: more =>
    if isDigit d then
      match (d :: more).span isPart with
      | (clock, rest) => (word ++ ' ' :: clock, rest)
    else (word, rest)
  | _, _ => (word, rest)

def bareValue (word : List Char) : Option Value :=
  if word = "true".toList ∨ word = "false".toList then some .scalar
  else if isInteger word then
    match Numeral.integer (String.ofList word) with
    | .ok n => some (.integer n)
    | .error _ => none
  else if isFloat word || isTime word then some .scalar
  else none

/-! ## Keys and values -/

/-- One name of a key. -/
def name (cs : List Char) : Read String :=
  match cs with
  | '"' :: rest => basicString (cs.length + 1) [] rest
  | '\'' :: rest => literalString rest
  | cs =>
    let bare := cs.takeWhile isBare
    if bare.isEmpty then none else some (String.ofList bare, cs.drop bare.length)

/-- Names with dots between them. -/
def dotted : Nat → List Char → Read Key
  | 0, _ => none
  | n + 1, cs =>
    match name (skipSpaces cs) with
    | none => none
    | some (first, rest) =>
      match skipSpaces rest with
      | '.' :: rest =>
        match dotted n rest with
        | some (more, rest) => some (first :: more, rest)
        | none => none
      | rest => some ([first], rest)

def key (cs : List Char) : Read Key := dotted (cs.length + 1) cs

mutual

/-- A value; the nesting of arrays and tables is bounded by `n`. -/
def value (n : Nat) (cs : List Char) : Read Value :=
  match n with
  | 0 => none
  | n + 1 =>
    match cs with
    | '[' :: rest => arrayItems n [] rest
    | '\x7b' :: rest => tablePairs n true [] rest
    | '"' :: _ => (string cs).map fun (s, rest) => (.string s, rest)
    | '\'' :: _ => (string cs).map fun (s, rest) => (.string s, rest)
    | cs =>
      match bareWord cs with
      | (word, rest) => (bareValue word).map fun v => (v, rest)
termination_by structural n

/-- The items of an array up to its end. Blank lines and comments may stand anywhere, and a comma
after the last item. -/
def arrayItems (n : Nat) (done : List Value) (cs : List Char) : Read Value :=
  match n with
  | 0 => none
  | n + 1 =>
    match skipBlank cs with
    | ']' :: rest => some (.array done.reverse, rest)
    | cs =>
      match value n cs with
      | none => none
      | some (v, rest) =>
        match skipBlank rest with
        | ',' :: rest => arrayItems n (v :: done) rest
        | ']' :: rest => some (.array (v :: done).reverse, rest)
        | _ => none
termination_by structural n

/-- The pairs of an inline table up to its end, all on one line. A comma asks for another pair. -/
def tablePairs (n : Nat) (first : Bool) (done : List (Key × Value)) (cs : List Char) :
    Read Value :=
  match n with
  | 0 => none
  | n + 1 =>
    match skipSpaces cs, first with
    | '\x7d' :: rest, true => some (.table [], rest)
    | cs, _ =>
      match key cs with
      | some (k, '=' :: rest) =>
        match value n (skipSpaces rest) with
        | none => none
        | some (v, rest) =>
          match skipSpaces rest with
          | ',' :: rest => tablePairs n false ((k, v) :: done) rest
          | '\x7d' :: rest => some (.table ((k, v) :: done).reverse, rest)
          | _ => none
      | _ => none
termination_by structural n

end

/-! ## Documents -/

/-- A line ends, perhaps with a comment. -/
def lineEnd (cs : List Char) : Option (List Char) :=
  match skipSpaces cs with
  | [] => some []
  | '#' :: rest => some (skipComment rest)
  | c :: rest => if isNewline c then some (c :: rest) else none

/-- One item of a document. -/
def item (cs : List Char) : Read Item :=
  match cs with
  | '[' :: '[' :: rest =>
    match key rest with
    | some (k, ']' :: ']' :: rest) => some (.arrayHeader k, rest)
    | _ => none
  | '[' :: rest =>
    match key rest with
    | some (k, ']' :: rest) => some (.header k, rest)
    | _ => none
  | cs =>
    match key cs with
    | some (k, '=' :: rest) =>
      (value (2 * cs.length + 2) (skipSpaces rest)).map fun (v, rest) => (.pair k v, rest)
    | _ => none

def items : Nat → List Char → Option (List Item)
  | 0, _ => none
  | n + 1, cs =>
    match skipBlank cs with
    | [] => some []
    | cs =>
      match item cs with
      | none => none
      | some (i, rest) =>
        match lineEnd rest with
        | none => none
        | some rest => (items n rest).map (i :: ·)

end Toml
end BlockCalc
