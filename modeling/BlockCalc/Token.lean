import BlockCalc.Position
import BlockCalc.Text.LowerCase
import BlockCalc.Text.Quoted

/-!
# BlockCalc.Token

Tokens and their kinds. A *lexeme* is what a token says, a *kind* is its lexical category. The
kind `other` is no category of the language: hand-made trees and reports may name any word where a
kind is asked for, and it is then shown as it stands.
-/

namespace BlockCalc

inductive TokenKind where
  | integer
  | plus
  | minus
  | star
  | slash
  | lparen
  | rparen
  | beginWord
  | endWord
  | ident
  | assign
  | dot
  | semi
  | eof
  | other (name : String)
deriving DecidableEq, Repr, Inhabited

namespace TokenKind

def name : TokenKind → String
  | .integer => "INTEGER"
  | .plus => "PLUS"
  | .minus => "MINUS"
  | .star => "STAR"
  | .slash => "SLASH"
  | .lparen => "LPAREN"
  | .rparen => "RPAREN"
  | .beginWord => "BEGIN"
  | .endWord => "END"
  | .ident => "IDENT"
  | .assign => "ASSIGN"
  | .dot => "DOT"
  | .semi => "SEMI"
  | .eof => "EOF"
  | .other n => n

/-- The kind with the given name; a name that no kind has becomes `other`. -/
def ofName (n : String) : TokenKind :=
  match n with
  | "INTEGER" => .integer
  | "PLUS" => .plus
  | "MINUS" => .minus
  | "STAR" => .star
  | "SLASH" => .slash
  | "LPAREN" => .lparen
  | "RPAREN" => .rparen
  | "BEGIN" => .beginWord
  | "END" => .endWord
  | "IDENT" => .ident
  | "ASSIGN" => .assign
  | "DOT" => .dot
  | "SEMI" => .semi
  | "EOF" => .eof
  | n => .other n

/-- How messages speak of a kind. -/
def label : TokenKind → String
  | .eof => "end of input"
  | .ident => "identifier"
  | .integer => "integer"
  | .beginWord => "'BEGIN'"
  | .endWord => "'END'"
  | .assign => "':='"
  | .plus => "'+'"
  | .minus => "'-'"
  | .star => "'*'"
  | .slash => "'/'"
  | .lparen => "'('"
  | .rparen => "')'"
  | .dot => "'.'"
  | .semi => "';'"
  | .other n => Quoted.string (lowerString n)

/-- The sign an operator is written with; any other kind is written by its name. -/
def symbol : TokenKind → String
  | .plus => "+"
  | .minus => "-"
  | .star => "*"
  | .slash => "/"
  | k => k.name

/-- How tightly a binary operator binds; `none` for the kinds that are no binary operator. -/
def precedence? : TokenKind → Option Nat
  | .plus => some 0
  | .minus => some 0
  | .star => some 1
  | .slash => some 1
  | _ => none

/-- The kinds an expression can begin with. -/
def factorStart : List TokenKind := [.integer, .lparen, .plus, .minus, .ident]

/-- How messages speak of what was expected. -/
def expectedLabel (kinds : List TokenKind) : String :=
  if kinds = factorStart then "expression"
  else
    match kinds.reverse with
    | [] => "nothing"
    | [k] => k.label
    | last :: before =>
      ", ".intercalate (before.reverse.map label) ++ " or " ++ last.label

end TokenKind

/-- What a token says. -/
inductive Lexeme where
  | integer (digits : String) (value : Int64)
  | ident (name : String)
  | plus
  | minus
  | star
  | slash
  | lparen
  | rparen
  | beginWord
  | endWord
  | assign
  | dot
  | semi
deriving DecidableEq, Repr, Inhabited

namespace Lexeme

def kind : Lexeme → TokenKind
  | .integer _ _ => .integer
  | .ident _ => .ident
  | .plus => .plus
  | .minus => .minus
  | .star => .star
  | .slash => .slash
  | .lparen => .lparen
  | .rparen => .rparen
  | .beginWord => .beginWord
  | .endWord => .endWord
  | .assign => .assign
  | .dot => .dot
  | .semi => .semi

/-- The text the lexeme was written with. -/
def literal : Lexeme → String
  | .integer digits _ => digits
  | .ident name => name
  | .plus => "+"
  | .minus => "-"
  | .star => "*"
  | .slash => "/"
  | .lparen => "("
  | .rparen => ")"
  | .beginWord => "BEGIN"
  | .endWord => "END"
  | .assign => ":="
  | .dot => "."
  | .semi => ";"

/-- The number an integer denotes; zero for every other lexeme. -/
def value : Lexeme → Int64
  | .integer _ v => v
  | _ => 0

/-- A word is a keyword or a name. -/
def ofWord (w : String) : Lexeme :=
  if w = "BEGIN" then .beginWord else if w = "END" then .endWord else .ident w

end Lexeme

structure Token where
  lexeme : Lexeme
  pos : Position
deriving DecidableEq, Repr, Inhabited

/-- A token in lists and reports: the kind and the literal, or the value of an integer. -/
def describeToken (k : TokenKind) (literal : String) (value : Int64) : String :=
  match k with
  | .integer => s!"Token({k.name}, {value.toInt})"
  | .eof => s!"Token({k.name})"
  | _ => s!"Token({k.name}, {literal})"

def Lexeme.describe (l : Lexeme) : String := describeToken l.kind l.literal l.value

end BlockCalc
