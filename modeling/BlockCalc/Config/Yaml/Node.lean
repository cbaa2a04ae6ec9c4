import BlockCalc.Config.Yaml.Stream

/-!
# BlockCalc.Config.Yaml.Node

The first document of a YAML stream as a tree of scalars, sequences and mappings. A node with a name
has a number too, given where the node begins, so an alias can stand inside the node that it means.
A name can be given again; an alias means the last node of its name.
-/

namespace BlockCalc
namespace Yaml

/-- An alias is known by its own number, its name, and the number of the node that it means. -/
inductive Node where
  | scalar (tag : Option String) (text : String) (plain : Bool)
  | sequence (items : List Node)
  | mapping (pairs : List (Node × Node))
  | alias (number : Nat) (name : String) (target : Nat)
deriving Inhabited

/-- What stands where nothing is written. -/
def Node.blank (tag : Option String) : Node := .scalar tag "" true

/-- A document: its root, and the nodes that aliases mean, by their numbers. -/
structure Document where
  root : Node
  named : List (Nat × Node)
deriving Inhabited

def Document.target? (d : Document) (n : Nat) : Option Node := d.named.lookup n

/-! ## Tags -/

/-- What stands before the tags that every document knows. -/
def commonTags : String := "tag:yaml.org,2002:"

/-- The full form of every tag handle. -/
abbrev Handles := List (String × String)

def defaultHandles : Handles := [("!", "!"), ("!!", commonTags)]

/-- The short form of a tag; the tag `!` alone says nothing. -/
def shortTag (handles : Handles) (handle suffix : String) : Option (Option String) :=
  let full? := if handle = "" then some suffix else (handles.lookup handle).map (· ++ suffix)
  full?.map fun full =>
    if full = "!" then none
    else if full.startsWith commonTags then
      some ("!!" ++ (full.drop commonTags.length).toString)
    else some full

/-! ## Reading nodes -/

/-- The tokens to come, the names given so far with the numbers of their nodes, the nodes that are
complete, and the numbers that come next. -/
structure Reader where
  stream : Stream
  names : List (String × Nat)
  named : List (Nat × Node)
  nextName : Nat
  nextAlias : Nat

abbrev Parse (α : Type) := StateT Reader Option α

namespace Parse

def scanning (a : Scan α) : Parse α := fun r =>
  match a r.stream with
  | some (x, s) => some (x, { r with stream := s })
  | none => none

def peek : Parse Token := scanning Scan.peek

/-- Takes the token that was seen. -/
def take : Parse Unit := scanning Scan.take

/-- Gives a name to the node that begins here. -/
def openName (name : Option String) : Parse (Option Nat) := do
  match name with
  | none => return none
  | some a =>
    let r ← get
    set { r with names := (a, r.nextName) :: r.names, nextName := r.nextName + 1 }
    return some r.nextName

/-- Keeps a node that has a number. -/
def complete (number : Option Nat) (x : Node) : Parse Node := do
  if let some n := number then
    modify fun r => { r with named := (n, x) :: r.named }
  return x

/-- An alias for the last node of its name. -/
def aliasNode (name : String) : Parse Node := do
  let r ← get
  match r.names.lookup name with
  | none => failure
  | some target =>
    set { r with nextAlias := r.nextAlias + 1 }
    return .alias r.nextAlias name target

/-- What stands before a node. -/
structure Properties where
  anchor : Option String
  tag : Option String
  written : Bool

def anchor? : Parse (Option String) := do
  match ← peek with
  | .anchor a =>
    take
    return some a
  | _ => return none

def tag? (handles : Handles) : Parse (Option (Option String)) := do
  match ← peek with
  | .tag h s =>
    take
    match shortTag handles h s with
    | some t => return some t
    | none => failure
  | _ => return none

/-- An anchor and a tag in either order. -/
def properties (handles : Handles) : Parse Properties := do
  match ← anchor? with
  | some a => return ⟨some a, (← tag? handles).join, true⟩
  | none =>
    match ← tag? handles with
    | some t => return ⟨← anchor?, t, true⟩
    | none => return ⟨none, none, false⟩

/-- Goes on to the next item between brackets: nothing where the token `close` ends them. -/
def nextFlowItem (first : Bool) (close : Token) : Parse (Option Token) := do
  let t ← peek
  if t = close then
    take
    return none
  else if first then return some t
  else if t = .flowEntry then
    take
    let t ← peek
    if t = close then
      take
      return none
    else return some t
  else failure

mutual

/-- A node; where a block may begin, and where a sequence may stand at the indentation of its
key. -/
def node (n : Nat) (hs : Handles) (block level : Bool) : Parse Node :=
  match n with
  | 0 => failure
  | n + 1 => do
    match ← peek with
    | .alias a =>
      take
      aliasNode a
    | _ =>
      let props ← properties hs
      let number ← openName props.anchor
      match ← peek, block, level with
      | .blockEntry, _, true => complete number (.sequence (← levelItems n hs []))
      | .scalar text plain, _, _ =>
        take
        complete number (.scalar props.tag text plain)
      | .flowSequence, _, _ =>
        take
        complete number (.sequence (← flowItems n hs true []))
      | .flowMapping, _, _ =>
        take
        complete number (.mapping (← flowPairs n hs true []))
      | .blockSequence, true, _ =>
        take
        complete number (.sequence (← blockItems n hs []))
      | .blockMapping, true, _ =>
        take
        complete number (.mapping (← blockPairs n hs []))
      | _, _, _ => if props.written then complete number (Node.blank props.tag) else failure
termination_by structural n

/-- A node, or a blank where one of the tokens `stops` comes at once. -/
def nodeOrBlank (n : Nat) (hs : Handles) (block level : Bool) (stops : List Token) : Parse Node :=
  match n with
  | 0 => failure
  | n + 1 => do
    if stops.contains (← peek) then return Node.blank none else node n hs block level
termination_by structural n

/-- The value after a key, or a blank where there is no colon. -/
def pairValue (n : Nat) (hs : Handles) (block : Bool) (stops : List Token) : Parse Node :=
  match n with
  | 0 => failure
  | n + 1 => do
    if (← peek) = .value then
      take
      nodeOrBlank n hs block block stops
    else return Node.blank none
termination_by structural n

def blockItems (n : Nat) (hs : Handles) (done : List Node) : Parse (List Node) :=
  match n with
  | 0 => failure
  | n + 1 => do
    match ← peek with
    | .blockEntry =>
      take
      let x ← nodeOrBlank n hs true false [.blockEntry, .blockEnd]
      blockItems n hs (x :: done)
    | .blockEnd =>
      take
      return done.reverse
    | _ => failure
termination_by structural n

/-- The items of a sequence at the indentation of its key. -/
def levelItems (n : Nat) (hs : Handles) (done : List Node) : Parse (List Node) :=
  match n with
  | 0 => failure
  | n + 1 => do
    match ← peek with
    | .blockEntry =>
      take
      let x ← nodeOrBlank n hs true false [.blockEntry, .key, .value, .blockEnd]
      levelItems n hs (x :: done)
    | _ => return done.reverse
termination_by structural n

def blockPairs (n : Nat) (hs : Handles) (done : List (Node × Node)) :
    Parse (List (Node × Node)) :=
  match n with
  | 0 => failure
  | n + 1 => do
    match ← peek with
    | .key =>
      take
      let k ← nodeOrBlank n hs true true [.key, .value, .blockEnd]
      let v ← pairValue n hs true [.key, .value, .blockEnd]
      blockPairs n hs ((k, v) :: done)
    | .blockEnd =>
      take
      return done.reverse
    | _ => failure
termination_by structural n

/-- The key of a pair between brackets. What comes instead of a key is taken with it. -/
def flowKey (n : Nat) (hs : Handles) : Parse Node :=
  match n with
  | 0 => failure
  | n + 1 => do
    if [Token.value, .flowEntry, .flowSequenceEnd].contains (← peek) then
      take
      return Node.blank none
    else node n hs false false
termination_by structural n

/-- The items of a sequence between brackets. An item with a colon is a mapping of one pair. -/
def flowItems (n : Nat) (hs : Handles) (first : Bool) (done : List Node) : Parse (List Node) :=
  match n with
  | 0 => failure
  | n + 1 => do
    match ← nextFlowItem first .flowSequenceEnd with
    | none => return done.reverse
    | some .key =>
      take
      let k ← flowKey n hs
      let v ← pairValue n hs false [.flowEntry, .flowSequenceEnd]
      flowItems n hs false (.mapping [(k, v)] :: done)
    | some _ =>
      let x ← node n hs false false
      flowItems n hs false (x :: done)
termination_by structural n

/-- The pairs of a mapping between braces. A node without a colon is a key without a value. -/
def flowPairs (n : Nat) (hs : Handles) (first : Bool) (done : List (Node × Node)) :
    Parse (List (Node × Node)) :=
  match n with
  | 0 => failure
  | n + 1 => do
    match ← nextFlowItem first .flowMappingEnd with
    | none => return done.reverse
    | some .key =>
      take
      let k ← nodeOrBlank n hs false false [.value, .flowEntry, .flowMappingEnd]
      let v ← pairValue n hs false [.flowEntry, .flowMappingEnd]
      flowPairs n hs false ((k, v) :: done)
    | some _ =>
      let k ← node n hs false false
      flowPairs n hs false ((k, Node.blank none) :: done)
termination_by structural n

end

/-! ## Documents -/

/-- The directives before a document: the handles they define. The version may be given once. -/
def directives : Nat → Bool → Handles → Parse Handles
  | 0, _, _ => failure
  | n + 1, seen, hs => do
    match ← peek with
    | .version major minor =>
      if seen ∨ major ≠ 1 ∨ minor ≠ 1 then failure
      take
      directives n true hs
    | .tagHandle h u =>
      if hs.any (·.1 == h) then failure
      take
      directives n seen (hs ++ [(h, u)])
    | _ => return hs

def endsContent : Token → Bool
  | .version _ _ | .tagHandle _ _ | .documentStart | .documentEnd | .streamEnd => true
  | _ => false

/-- The root of the first document, where there is one. A token has to follow it. -/
def root (fuel : Nat) : Parse (Option Node) := do
  let whole (x : Node) : Parse (Option Node) := do
    let _ ← peek
    return some x
  match ← peek with
  | .streamEnd => return none
  | t =>
    if endsContent t ∧ t ≠ .documentEnd then
      let hs ← directives fuel false []
      if (← peek) ≠ .documentStart then failure
      take
      if endsContent (← peek) then whole (Node.blank none)
      else whole (← node fuel (hs ++ defaultHandles) true false)
    else whole (← node fuel defaultHandles true false)

end Parse

/-- Reads the first document of a text: nothing where the text is no stream of documents. -/
def read (cs : List Char) : Option (Option Document) :=
  match Parse.root (16 * cs.length + 64) ⟨Stream.start cs, [], [], 0, 0⟩ with
  | none => none
  | some (none, _) => some none
  | some (some x, r) => some (some ⟨x, r.named⟩)

end Yaml
end BlockCalc
