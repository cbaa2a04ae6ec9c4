import BlockCalc.Evaluation
import BlockCalc.Program.Parser

/-!
# BlockCalc.Diagnostic

The wording of errors, and the excerpt of the source that goes with them. Every cause is worded
here and nowhere else.
-/

namespace BlockCalc

/-- The line of `source` at `pos` with a caret under the column, where there is such a line. The
carriage returns at the end of the line are left out, and the caret stands at most one column
past what is left. -/
def codeFrame (source : Text) (pos : Position) : Option Text :=
  if source.isEmpty ∨ pos.line ≤ 0 then none
  else
    match (Text.lines source)[(pos.line - 1).toNat]? with
    | none => none
    | some line =>
      let shown := Text.dropEndWhile (· == .char '\r') line
      let column := min (max pos.column 1) (shown.length + 1)
      let label := s!"{pos.line}"
      some <|
        Text.ofString s!"  --> line {pos.line}, column {column}\n {label} | " ++ shown ++
        Text.ofString "\n " ++ Text.spaces label.length ++ Text.ofString " | " ++
        Text.spaces (column - 1).toNat ++ Text.ofString "^"

/-- A message with the excerpt of the source, where there is one. -/
def withFrame (source : Text) (pos : Position) (message : Text) : Text :=
  match codeFrame source pos with
  | none => message
  | some frame => message ++ [Text.newline] ++ frame

/-! ## Wording -/

def LexCause.message : LexCause → String
  | .unexpected g => s!"unexpected character {Quoted.glyph g}"
  | .loneColon => "expected '=' after ':'"
  | .tooLarge digits => s!"integer literal {digits} out of range"

def lexMessage (pos : Position) (message : Text) : Text :=
  Text.ofString s!"lex error at {pos.render}: " ++ message

def parseMessage (pos : Position) (message : Text) : Text :=
  Text.ofString s!"parse error at {pos.render}: " ++ message

def expectedMessage (expected : List TokenKind) (found : TokenKind) : String :=
  s!"expected {TokenKind.expectedLabel expected}, got {found.label}"

def undefinedMessage (name : String) : Text := Text.ofString s!"undefined variable {name}"

def arithmeticMessage (pos : Position) (cause : ArithError) : Text :=
  Text.ofString s!"arithmetic error at {pos.render}: {cause.message}"

def runtimeMessage (pos : Position) (message : String) : Text :=
  Text.ofString s!"runtime error at {pos.render}: {message}"

namespace ParseError

/-- The kind of what was found. -/
def foundKind (e : ParseError) : TokenKind :=
  match e.found with
  | some l => l.kind
  | none => .eof

/-- The kinds that would have been allowed; none are named when the nesting is too deep. -/
def expectedKinds (e : ParseError) : List TokenKind :=
  match e.fault with
  | .expected kinds => kinds
  | .tooDeep _ => []

def describeFound (e : ParseError) : String :=
  match e.found with
  | some l => l.describe
  | none => describeToken .eof "" 0

def message (e : ParseError) : String :=
  match e.fault with
  | .expected kinds => expectedMessage kinds e.foundKind
  | .tooDeep limit => s!"nesting too deep (limit {limit})"

end ParseError

/-- Why a text has no result: it is not accepted, or evaluating it faults. -/
inductive Failure where
  | rejected (r : Rejection)
  | faulted (e : EvalError)
deriving DecidableEq, Repr, Inhabited

def Rejection.message (source : Text) : Rejection → Text
  | .lex e => withFrame source e.pos (lexMessage e.pos (Text.ofString e.cause.message))
  | .parse e => withFrame source e.pos (parseMessage e.pos (Text.ofString e.message))

def EvalError.message (source : Text) : EvalError → Text
  | .undefined name pos => withFrame source pos (undefinedMessage name)
  | .arithmetic _ cause pos => withFrame source pos (arithmeticMessage pos cause)
  | .missingNode => Text.ofString "cannot evaluate nil node"
  | .statementAsValue pos =>
    withFrame source pos (runtimeMessage pos "statement used as a value")
  | .unsupportedUnary op pos =>
    withFrame source pos (runtimeMessage pos s!"unsupported unary operator {op.name}")
  | .unsupportedBinary op pos =>
    withFrame source pos (runtimeMessage pos s!"unsupported binary operator {op.name}")

def Failure.message (source : Text) : Failure → Text
  | .rejected r => r.message source
  | .faulted e => e.message source

end BlockCalc
