import BlockCalc.Program
import BlockCalc.Token.Scanner

/-!
# BlockCalc.Program.Parser

Reading programs and expressions from tokens:

    program    = block "."
    block      = "BEGIN" statement { ";" statement } "END"
    statement  = block | name ":=" expression | nothing
    expression = term { ("+" | "-") term }
    term       = factor { ("*" | "/") factor }
    factor     = integer | name | "(" expression ")" | ("+" | "-") factor

Blocks, parenthesised groups and signs nest up to a limit. The recursion is on the *room* that is
left below the limit, so a factor that opens a group reads it with one less.

The scan behind the tokens may have stopped at a fault. A reader that needs a token where the
tokens are used up reports that fault, and no reader looks further than the next token.
-/

namespace BlockCalc

/-- What is wrong with a token. -/
inductive ParseFault where
  | expected (kinds : List TokenKind)
  | tooDeep (limit : Nat)
deriving DecidableEq, Repr, Inhabited

/-- A token, or the end of the text, that the grammar does not allow where it stands. -/
structure ParseError where
  pos : Position
  found : Option Lexeme
  fault : ParseFault
deriving DecidableEq, Repr, Inhabited

/-- Why a text is not accepted. -/
inductive Rejection where
  | lex (e : LexError)
  | parse (e : ParseError)
deriving DecidableEq, Repr, Inhabited

/-- What was read, and the tokens after it. -/
abbrev Parsed (α : Type) := Except Rejection (α × List Token)

/-- What every reader knows: where the tokens stop, and how deep they may nest. -/
structure Reader where
  stop : Stop
  limit : Nat

namespace Reader

/-- The place of the next token, or of the end. -/
def here (r : Reader) : List Token → Position
  | t :: _ => t.pos
  | [] => r.stop.pos

/-- The next token is none of `kinds`. -/
def unexpected (r : Reader) (kinds : List TokenKind) : List Token → Rejection
  | t :: _ => .parse ⟨t.pos, some t.lexeme, .expected kinds⟩
  | [] =>
    match r.stop with
    | .eof pos => .parse ⟨pos, none, .expected kinds⟩
    | .fault e => .lex e

def tooDeep (r : Reader) (t : Token) : Rejection :=
  .parse ⟨t.pos, some t.lexeme, .tooDeep r.limit⟩

/-- Nothing may follow. -/
def finish {α : Type} (r : Reader) (a : α) : List Token → Except Rejection α
  | t :: ts => .error (r.unexpected [.eof] (t :: ts))
  | [] =>
    match r.stop with
    | .eof _ => .ok a
    | .fault e => .error (.lex e)

end Reader

/-! ## Expressions -/

def Lexeme.sum? : Lexeme → Option BinaryOp
  | .plus => some .add
  | .minus => some .sub
  | _ => none

def Lexeme.product? : Lexeme → Option BinaryOp
  | .star => some .mul
  | .slash => some .div
  | _ => none

/-- More operands of one level after `left`, taken from left to right. Each takes at least its
operator, so as many steps as there are tokens are enough. -/
def chain (op? : Lexeme → Option BinaryOp) (operand : List Token → Parsed Expr) :
    Nat → Expr → List Token → Parsed Expr
  | 0, left, ts => .ok (left, ts)
  | _ + 1, left, [] => .ok (left, [])
  | n + 1, left, t :: ts =>
    match op? t.lexeme with
    | none => .ok (left, t :: ts)
    | some op =>
      match operand ts with
      | .error e => .error e
      | .ok (right, rest) => chain op? operand n (.binary op left right t.pos) rest

/-- Operands of one level, at least one. -/
def level (op? : Lexeme → Option BinaryOp) (operand : List Token → Parsed Expr)
    (ts : List Token) : Parsed Expr :=
  match operand ts with
  | .error e => .error e
  | .ok (left, rest) => chain op? operand rest.length left rest

/-- An expression, given how its factors are read. -/
def expressionOf (factor : List Token → Parsed Expr) : List Token → Parsed Expr :=
  level Lexeme.sum? (level Lexeme.product? factor)

namespace Reader

/-- The rest of a group whose parenthesis is open. -/
def closeGroup (r : Reader) : Parsed Expr → Parsed Expr
  | .error e => .error e
  | .ok (e, ts) =>
    match ts with
    | ⟨.rparen, _⟩ :: rest => .ok (e, rest)
    | ts => .error (r.unexpected [.rparen] ts)

/-- A factor that may nest `room` deep. -/
def factor (r : Reader) (room : Nat) (ts : List Token) : Parsed Expr :=
  match ts with
  | [] => .error (r.unexpected TokenKind.factorStart [])
  | t :: rest =>
    match t.lexeme with
    | .integer _ v => .ok (.int v t.pos, rest)
    | .ident n => .ok (.var n t.pos, rest)
    | .lparen =>
      match room with
      | 0 => .error (r.tooDeep t)
      | room + 1 => r.closeGroup (expressionOf (r.factor room) rest)
    | .plus =>
      match room with
      | 0 => .error (r.tooDeep t)
      | room + 1 =>
        match r.factor room rest with
        | .error e => .error e
        | .ok (e, ts) => .ok (.unary .plus e t.pos, ts)
    | .minus =>
      match room with
      | 0 => .error (r.tooDeep t)
      | room + 1 =>
        match r.factor room rest with
        | .error e => .error e
        | .ok (e, ts) => .ok (.unary .minus e t.pos, ts)
    | _ => .error (r.unexpected TokenKind.factorStart (t :: rest))
termination_by structural room

def expression (r : Reader) (room : Nat) : List Token → Parsed Expr :=
  expressionOf (r.factor room)

/-! ## Statements -/

/-- An assignment whose target `name`, at `namePos`, has been read. -/
def assignment (r : Reader) (room : Nat) (name : String) (namePos : Position) :
    List Token → Parsed Stmt
  | ⟨.assign, pos⟩ :: rest =>
    match r.expression room rest with
    | .error e => .error e
    | .ok (value, ts) => .ok (.assign name namePos value pos, ts)
  | ts => .error (r.unexpected [.assign] ts)

/-- Statements up to the `END` of their block, given how one is read. Each but the last takes at
least its semicolon, so as many steps as there are tokens are enough. -/
def statements (r : Reader) (statement : List Token → Parsed Stmt) :
    Nat → List Token → Parsed Stmts
  | 0, ts => .error (r.unexpected [.semi, .endWord] ts)
  | n + 1, ts =>
    match statement ts with
    | .error e => .error e
    | .ok (s, ⟨.semi, _⟩ :: rest) =>
      match statements r statement n rest with
      | .error e => .error e
      | .ok (more, ts) => .ok (.cons s more, ts)
    | .ok (s, ⟨.endWord, _⟩ :: rest) => .ok (.one s, rest)
    | .ok (_, ts) => .error (r.unexpected [.semi, .endWord] ts)

/-- The statements of a block whose `BEGIN` has been read. -/
def body (r : Reader) (statement : List Token → Parsed Stmt) (ts : List Token) : Parsed Stmts :=
  r.statements statement (ts.length + 1) ts

/-- A statement that may nest `room` deep. The empty statement takes no token. -/
def statement (r : Reader) (room : Nat) (ts : List Token) : Parsed Stmt :=
  match ts with
  | [] => .ok (.empty (r.here []), [])
  | t :: rest =>
    match t.lexeme with
    | .beginWord =>
      match room with
      | 0 => .error (r.tooDeep t)
      | room + 1 =>
        match r.body (r.statement room) rest with
        | .error e => .error e
        | .ok (body, ts) => .ok (.block t.pos body, ts)
    | .ident name => r.assignment room name t.pos rest
    | _ => .ok (.empty t.pos, t :: rest)
termination_by structural room

/-! ## Whole texts -/

/-- A program and nothing after it. Its own block takes one level of the limit. -/
def program (r : Reader) (ts : List Token) : Except Rejection Program :=
  match ts with
  | ⟨.beginWord, pos⟩ :: rest =>
    match r.body (r.statement (r.limit - 1)) rest with
    | .error e => .error e
    | .ok (body, ⟨.dot, _⟩ :: rest) => r.finish ⟨pos, body⟩ rest
    | .ok (_, ts) => .error (r.unexpected [.dot] ts)
  | ts => .error (r.unexpected [.beginWord] ts)

/-- An expression and nothing after it. -/
def loneExpression (r : Reader) (ts : List Token) : Except Rejection Expr :=
  match r.expression r.limit ts with
  | .error e => .error e
  | .ok (e, rest) => r.finish e rest

end Reader

/-- Parses a program that nests at most `limit` deep. -/
def Program.parse (limit : Nat) (t : Text) : Except Rejection Program :=
  let s := Scan.ofText t
  Reader.program ⟨s.stop, limit⟩ s.tokens

/-- Parses an expression that nests at most `limit` deep. -/
def Expr.parse (limit : Nat) (t : Text) : Except Rejection Expr :=
  let s := Scan.ofText t
  Reader.loneExpression ⟨s.stop, limit⟩ s.tokens

end BlockCalc
