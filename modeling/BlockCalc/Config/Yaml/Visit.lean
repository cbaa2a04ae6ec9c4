import BlockCalc.Config.Yaml.Node

/-!
# BlockCalc.Config.Yaml.Visit

Visiting the nodes of a document. Going through an alias visits the alias and the node that it
means. No alias leads back to itself, and aliases may make up nearly all visits of a small document
but only a small part of those of a large one.
-/

namespace BlockCalc
namespace Yaml

/-- How many visits there have been, and how many of them inside an alias. -/
structure Tally where
  visits : Nat
  aliased : Nat
deriving DecidableEq, Repr, Inhabited

namespace Tally

def none : Tally := ⟨0, 0⟩

/-- The share of visits that aliases may make up, in parts of 360 million: 99 in a hundred of up to
400,000 visits, ten in a hundred from 4,000,000 visits on, and in proportion between them. -/
def allowedShare (visits : Nat) : Nat :=
  if visits ≤ 400000 then 99 * 3600000
  else if 4000000 ≤ visits then 10 * 3600000
  else 99 * 3600000 - 89 * (visits - 400000)

def isExcessive (t : Tally) : Bool :=
  100 < t.aliased && 1000 < t.visits &&
    t.visits * allowedShare t.visits < t.aliased * (100 * 3600000)

/-- One more visit, inside an alias or not. -/
def visit (t : Tally) (inAlias : Bool) : Option Tally :=
  let t : Tally := ⟨t.visits + 1, t.aliased + if inAlias then 1 else 0⟩
  if t.isExcessive then Option.none else some t

end Tally

/-- The numbers of the aliases that led to a node. -/
abbrev Trail := List Nat

/-- Visits a node: the node itself, or the one that an alias means, and the trail to it. -/
def Document.visit (d : Document) (trail : Trail) (x : Node) (t : Tally) :
    Option (Node × Trail × Tally) :=
  match t.visit (!trail.isEmpty), x with
  | none, _ => none
  | some t, .alias number _ target =>
    if trail.contains number then none
    else
      match d.target? target, t.visit true with
      | some y, some t => some (y, number :: trail, t)
      | _, _ => none
  | some t, x => some (x, trail, t)

end Yaml
end BlockCalc
