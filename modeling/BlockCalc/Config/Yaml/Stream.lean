import BlockCalc.Config.Yaml.Token

/-!
# BlockCalc.Config.Yaml.Stream

A stream of tokens, read from the text as they are asked for. Indentation shows in them: a deeper
line opens a block, and `blockEnd` closes it. A key without a mark of its own is known only by the
colon after it, so its `key` token is put in front of tokens that are there already.

`peek` shows the next token once two more are there and it is settled whether it is a key. What is
wrong with the text beyond that is never seen.
-/

namespace BlockCalc
namespace Yaml

/-- How deep blocks and flow collections may be nested. -/
def deepest : Nat := 10000

/-- A token, known by its number, that may turn out to be a key as long as it is open. In a block,
what stands at its indentation has to. -/
structure Candidate where
  isOpen : Bool
  required : Bool
  number : Nat
  line : Nat
  column : Nat
  index : Nat
deriving Inhabited

/-- The tokens read and not yet taken, and what the next ones hang on: the indentation of the open
blocks, whether a key may begin here, the number of open flow collections, the last candidate of
each and of what is around them, the innermost first, and for every token that is waited for as a
possible key the level of its candidate. -/
structure Stream where
  place : Place
  tokens : List Token
  taken : Nat
  indent : Int
  outer : List Int
  keyAllowed : Bool
  level : Nat
  candidate : Candidate
  enclosing : List Candidate
  awaited : List (Nat × Nat)
deriving Inhabited

namespace Stream

def start (cs : List Char) : Stream :=
  ⟨Place.start cs, [], 0, -1, [], true, 0, ⟨false, false, 0, 0, 0, 0⟩, [], []⟩

def inFlow (s : Stream) : Bool := s.level != 0

/-- The number of the next token to be read. -/
def nextNumber (s : Stream) : Nat := s.taken + s.tokens.length

def emit (s : Stream) (t : Token) : Stream := { s with tokens := s.tokens ++ [t] }

/-- Puts a token in front of the one with number `n`, or at the end if that one has been taken. -/
def insert (s : Stream) (n : Nat) (t : Token) : Stream :=
  if n < s.taken then s.emit t
  else
    let k := n - s.taken
    { s with tokens := s.tokens.take k ++ t :: s.tokens.drop k }

def forget (s : Stream) (n : Nat) : Stream :=
  { s with awaited := s.awaited.filter (·.1 != n) }

/-- The candidate of a level. -/
def candidateAt (s : Stream) (level : Nat) : Option Candidate :=
  if level ≤ s.level then (s.candidate :: s.enclosing)[s.level - level]? else none

/-- Closes the candidate of a level. -/
def closeAt (s : Stream) (level : Nat) : Stream :=
  if level = s.level then { s with candidate := { s.candidate with isOpen := false } }
  else
    let close (c : Candidate) : Candidate := { c with isOpen := false }
    { s with enclosing := s.enclosing.modify (s.level - level - 1) close }

/-- Whether a candidate can still become a key: on the same line, and not too far back. -/
def inReach (s : Stream) (c : Candidate) : Bool :=
  c.line == s.place.line && s.place.index ≤ c.index + 1024

/-- Closes the blocks that are indented deeper than `column`. -/
def closeBlocks (column : Int) : Int → List Int → List Token → Int × List Int × List Token
  | i, [], ts => (i, [], ts)
  | i, o :: os, ts =>
    if column < i then closeBlocks column o os (.blockEnd :: ts) else (i, o :: os, ts)

def unindent (s : Stream) (column : Int) : Stream :=
  if s.inFlow then s
  else
    match closeBlocks column s.indent s.outer [] with
    | (i, os, ends) => { s with indent := i, outer := os, tokens := s.tokens ++ ends }

end Stream

/-- A step of reading tokens. -/
abbrev Scan (α : Type) := StateT Stream Option α

namespace Scan

def reading (r : Read α) : Scan α := fun s =>
  match r s.place with
  | some (a, p) => some (a, { s with place := p })
  | none => none

/-- Opens a block at `column`, unless one that deep is open, in front of token number `n`. -/
def openBlock (column n : Nat) (t : Token) : Scan Unit := do
  let s ← get
  if !s.inFlow && decide (s.indent < column) then
    if deepest ≤ s.outer.length then failure
    set { s.insert n t with indent := column, outer := s.indent :: s.outer }

/-- Gives up the candidate; one that has to be a key cannot be given up. -/
def dropCandidate : Scan Unit := do
  let s ← get
  if s.candidate.isOpen then
    if s.candidate.required then failure
    set ((s.closeAt s.level).forget s.candidate.number)

/-- The next token may turn out to be a key. -/
def saveCandidate : Scan Unit := do
  if (← get).keyAllowed then
    dropCandidate
    modify fun s =>
      let p := s.place
      let required := !s.inFlow && s.indent == p.column
      { s with
        candidate := ⟨true, required, s.nextNumber, p.line, p.column, p.index⟩
        awaited := (s.nextNumber, s.level) :: s.awaited }

/-- Whether the candidate of a level can still become a key. One that cannot is closed, unless it
has to be a key. -/
def isCandidate (level : Nat) : Scan Bool := do
  let s ← get
  match s.candidateAt level with
  | none => failure
  | some c =>
    if !c.isOpen then return false
    else if s.inReach c then return true
    else if c.required then failure
    else
      set (s.closeAt level)
      return false

/-- A token of `width` characters, after which a key may begin or not. -/
def mark (width : Nat) (keyAllowed : Bool) (t : Token) : Scan Unit := do
  modify fun s => { s with keyAllowed := keyAllowed }
  reading (skipMany width)
  modify (·.emit t)

/-- Blanks, comments and line breaks before a token. A byte order mark may stand at the beginning
of a line if the piece asked for last began with one. -/
def skipToToken : Nat → Scan Unit
  | 0 => failure
  | n + 1 => do
    let s ← get
    reading do
      need 1
      let p ← get
      if p.column = 0 ∧ p.markedLoad then skip
      let _ ← span fun c => c == ' ' || ((s.inFlow || !s.keyAllowed) && c == '\t')
      if (← rest).head? = some '#' then comments
    if (← get).place.atBreak then
      reading do
        need 2
        let _ ← lineBreak
      modify fun s => { s with keyAllowed := s.keyAllowed || !s.inFlow }
      skipToToken n

def streamEnd : Scan Unit := do
  modify fun s =>
    let p := s.place
    { s with place := if p.column = 0 then p else { p with line := p.line + 1, column := 0 } }
  modify (·.unindent (-1))
  dropCandidate
  mark 0 false .streamEnd

def documentMark (t : Token) : Scan Unit := do
  modify (·.unindent (-1))
  dropCandidate
  mark 3 false t

def directiveToken : Scan Unit := do
  modify (·.unindent (-1))
  dropCandidate
  let t ← reading directive
  mark 0 false t

/-- The candidate of a new flow collection has the number of the token that opens it. -/
def openFlow (t : Token) : Scan Unit := do
  saveCandidate
  let s ← get
  if deepest ≤ s.level then failure
  set { s with
    level := s.level + 1
    candidate := ⟨false, false, s.nextNumber, 0, 0, 0⟩
    enclosing := s.candidate :: s.enclosing }
  mark 1 true t

def closeFlow (t : Token) : Scan Unit := do
  dropCandidate
  let s ← get
  match s.enclosing with
  | c :: cs =>
    set { s.forget s.candidate.number with level := s.level - 1, candidate := c, enclosing := cs }
  | [] => pure ()
  mark 1 false t

def flowEntry : Scan Unit := do
  dropCandidate
  mark 1 true .flowEntry

/-- Opens a block where a mark for one of its entries stands. -/
def openBlockHere (t : Token) : Scan Unit := do
  let s ← get
  if !s.inFlow && !s.keyAllowed then failure
  openBlock s.place.column s.nextNumber t

def blockEntry : Scan Unit := do
  openBlockHere .blockSequence
  dropCandidate
  mark 1 true .blockEntry

def explicitKey : Scan Unit := do
  openBlockHere .blockMapping
  dropCandidate
  mark 1 (!(← get).inFlow) .key

/-- A colon: it makes a key of the candidate, or follows a key that was marked. -/
def valueMark : Scan Unit := do
  let s ← get
  if ← isCandidate s.level then
    let c := s.candidate
    modify (·.insert c.number .key)
    openBlock c.column c.number .blockMapping
    modify fun s => (s.closeAt s.level).forget c.number
    mark 1 false .value
  else
    openBlockHere .blockMapping
    mark 1 (!s.inFlow) .value

/-- A token that may be a key. -/
def candidateToken (r : Read Token) : Scan Unit := do
  saveCandidate
  let t ← reading r
  mark 0 false t

def plainToken : Scan Unit := do
  saveCandidate
  let s ← get
  let (text, broken) ← reading (plainScalar s.inFlow (s.indent + 1))
  mark 0 broken (.scalar (String.ofList text) true)

def quotedToken (quote : Char) : Scan Unit :=
  candidateToken do
    return .scalar (String.ofList (← quotedScalar quote)) false

def blockToken (literal : Bool) : Scan Unit := do
  dropCandidate
  let text ← reading (blockScalar literal (← get).indent)
  mark 0 true (.scalar (String.ofList text) false)

/-- Whether an unquoted scalar can begin with `c` before `rest`. -/
def beginsPlain (flow : Bool) (c : Char) (rest : List Char) : Bool :=
  let marks := "-?:,[]\x7b\x7d#&*!|>'\"%@\x60".toList
  !(isSpaceOrTab c || isBreak c || marks.contains c) ||
    (c == '-' && !rest.head?.any isSpaceOrTab) ||
    (!flow && (c == '?' || c == ':') && !atGap rest)

/-- The token that begins with `c` before `rest`. -/
def tokenAt (flow : Bool) (c : Char) (rest : List Char) : Scan Unit :=
  let marked := flow || atGap rest
  match c with
  | '[' => openFlow .flowSequence
  | '\x7b' => openFlow .flowMapping
  | ']' => closeFlow .flowSequenceEnd
  | '\x7d' => closeFlow .flowMappingEnd
  | ',' => flowEntry
  | '*' => candidateToken do return .alias (← anchorName)
  | '&' => candidateToken do return .anchor (← anchorName)
  | '!' => candidateToken do
    let (handle, suffix) ← tagParts
    return .tag handle suffix
  | '\'' => quotedToken '\''
  | '"' => quotedToken '"'
  | _ =>
    if c = '-' ∧ atGap rest then blockEntry
    else if c = '?' ∧ marked then explicitKey
    else if c = ':' ∧ marked then valueMark
    else if c = '|' ∧ !flow then blockToken true
    else if c = '>' ∧ !flow then blockToken false
    else if beginsPlain flow c rest then plainToken
    else failure

/-- Reads the next token, with those that come with it. A comment on its line is passed over, but
not after the mark of an item. -/
def next : Scan Unit := do
  reading (need 1)
  skipToToken (← reading steps)
  modify fun s => s.unindent s.place.column
  reading (need 4)
  let s ← get
  let p := s.place
  match p.rest with
  | [] => streamEnd
  | c :: rest =>
    if p.column = 0 ∧ c = '%' then directiveToken
    else if p.atMark '-' then documentMark .documentStart
    else if p.atMark '.' then documentMark .documentEnd
    else
      tokenAt s.inFlow c rest
      if (← get).tokens.getLast? ≠ some .blockEntry then reading lineComment

/-- Reads on until the next token can be taken, with at most `n` steps. -/
def settle : Nat → Scan Unit
  | 0 => failure
  | n + 1 => do
    let s ← get
    let more : Bool ←
      match s.tokens, s.awaited.lookup s.taken with
      | _ :: _ :: _ :: _, none => pure false
      | _ :: _ :: _ :: _, some level => isCandidate level
      | _, _ => pure true
    if more then
      next
      settle n

/-- The next token. -/
def peek : Scan Token := do
  settle ((← reading steps) + 3)
  match (← get).tokens with
  | t :: _ => return t
  | [] => failure

/-- Takes the next token, which has been seen. -/
def take : Scan Unit :=
  modify fun s => { s with tokens := s.tokens.drop 1, taken := s.taken + 1 }

end Scan
end Yaml
end BlockCalc
