import BlockCalc.Config.Yaml.Place

/-!
# BlockCalc.Config.Yaml.Comment

Comments. One that follows a token on its line belongs to the token, whatever blanks stand between
them. A comment on lines of its own goes on with the next comment after blanks and empty lines, as
long as that one is within reach.
-/

namespace BlockCalc
namespace Yaml

/-- How far the next comment is looked for. -/
def commentReach : Nat := 512

/-- The distance to a comment after nothing but blanks, or line breaks too where `acrossLines` says
so. Distances from `k` on are tried, `n` of them. -/
def commentWithin (acrossLines : Bool) : Nat → Nat → Read (Option Nat)
  | 0, _ => return none
  | n + 1, k => do
    need (k + 1)
    match (← rest).drop k with
    | [] => return none
    | c :: _ =>
      if isSpaceOrTab c || (acrossLines && (c == '\n' || c == '\r')) then
        commentWithin acrossLines n (k + 1)
      else if acrossLines && isBreak c then
        if 0 < n then need (k + 2)
        return none
      else return if c = '#' then some k else none

/-- A comment on the same line after a token. -/
def lineComment : Read Unit := do
  if (← get).breaks = 0 then
    if let some k ← commentWithin false commentReach 0 then
      skipMany k
      skipLine

/-- Goes on over blanks and line breaks, with at most `n` steps, to the character number `goal`. -/
def skipAcross (goal : Nat) : Nat → Read Unit
  | 0 => pure ()
  | n + 1 => do
    let p ← get
    if p.index < goal then
      if p.atBreak then
        let _ ← lineBreak
      else skip
      skipAcross goal n

/-- A comment, and those after it within reach. A line break other than a carriage return or a
newline ends the search. -/
def commentsFrom : Nat → Read Unit
  | 0 => failure
  | n + 1 => do
    skipLine
    let p ← get
    if p.rest.head?.any fun c => c != '\n' && c != '\r' then need 2
    else
      if let some k ← commentWithin true (commentReach - 1) 1 then
        skipAcross (p.index + k) k
        commentsFrom n

/-- Comments on lines of their own, from the first on. -/
def comments : Read Unit := do
  commentsFrom (← steps)

end Yaml
end BlockCalc
