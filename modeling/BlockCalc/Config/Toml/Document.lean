import BlockCalc.Config.Toml.Item

/-!
# BlockCalc.Config.Toml.Document

What the lines of a TOML document define. `Toml.read` gives the entries at the top of a document
and the keys that it defines, or nothing where the text is no document.

A name is defined once, with two exceptions that are kept by its path: a table that was only passed
through on the way to another is implicit, and may be defined after that; and where an array is or
was the last value written, another may take its place.
-/

namespace BlockCalc
namespace Toml

/-- What a name stands for. Of an array of tables only the last is still open. -/
inductive Node where
  | leaf (v : Value)
  | table (entries : List (String × Node))
  | tables (last : List (String × Node))
deriving Inhabited

abbrev Entries := List (String × Node)

def Entries.replace (es : Entries) (k : String) (v : Node) : Entries :=
  if es.any (·.1 == k) then es.map fun e => if e.1 == k then (k, v) else e else es ++ [(k, v)]

/-- The table that the names of a key lead to. -/
def tableAt : Key → Entries → Option Entries
  | [], es => some es
  | k :: ks, es =>
    match es.lookup k with
    | some (.table sub) => tableAt ks sub
    | some (.tables sub) => tableAt ks sub
    | _ => none

/-- Changes the table that the names of a key lead to. -/
def within : Key → (Entries → Option Entries) → Entries → Option Entries
  | [], f, es => f es
  | k :: ks, f, es =>
    match es.lookup k with
    | some (.table sub) => (within ks f sub).map fun sub => es.replace k (.table sub)
    | some (.tables sub) => (within ks f sub).map fun sub => es.replace k (.tables sub)
    | _ => none

/-- Puts a value where a dotted key leads through tables only, whatever was there before. -/
def Entries.put : Entries → Key → Node → Option Entries
  | es, [], _ => some es
  | es, [k], v => some (es.replace k v)
  | es, k :: ks, v =>
    match es.lookup k with
    | some (.table sub) => (Entries.put sub ks v).map fun sub => es.replace k (.table sub)
    | some _ => none
    | none => (Entries.put [] ks v).map fun sub => es.replace k (.table sub)

mutual

/-- A value as what a name stands for. -/
def Value.toNode : Value → Option Node
  | .table pairs => (pairEntries [] pairs).map .table
  | v => some (.leaf v)

def pairEntries (es : Entries) : List (Key × Value) → Option Entries
  | [] => some es
  | (k, v) :: rest =>
    match v.toNode with
    | some x =>
      match es.put k x with
      | some es => pairEntries es rest
      | none => none
    | none => none

end

/-- A document as far as it has been read: its tables, the paths of implicit tables and of arrays,
and the keys it defines. -/
structure Document where
  entries : Entries
  implicit : List Key
  arrays : List Key
  keys : List Key
deriving Inhabited

abbrev Build (α : Type) := StateT Document Option α

namespace Build

def markImplicit (path : Key) : Build Unit :=
  modify fun d => { d with implicit := path :: d.implicit }

def unmarkImplicit (path : Key) : Build Unit :=
  modify fun d => { d with implicit := d.implicit.filter (· != path) }

/-- Notes whether the value of a name is an array. A name without letters stands for its table, or
for itself at the top. -/
def noteArray (place : Key) (k : String) (isArray : Bool) : Build Unit :=
  let path := if k ≠ "" then place ++ [k] else if place.isEmpty then [""] else place
  modify fun d =>
    let others := d.arrays.filter (· != path)
    { d with arrays := if isArray then path :: others else others }

def noteKey (path : Key) : Build Unit := modify fun d => { d with keys := d.keys ++ [path] }

/-- Changes the table at `place`. -/
def change (place : Key) (f : Entries → Option Entries) : Build Unit := do
  let d ← get
  match within place f d.entries with
  | some es => set { d with entries := es }
  | none => failure

/-- What a name stands for in the table at `place`. -/
def lookup (place : Key) (k : String) : Build (Option Node) := do
  match tableAt place (← get).entries with
  | some es => return es.lookup k
  | none => failure

/-- Defines a name in the table at `place`. -/
def define (place : Key) (k : String) (v : Node) : Build Unit := do
  let path := place ++ [k]
  let d ← get
  match ← lookup place k with
  | none => change place fun es => some (es.replace k v)
  | some _ =>
    if d.arrays.contains path then
      unmarkImplicit path
      change place fun es => some (es.replace k v)
    else if d.implicit.contains path then unmarkImplicit path
    else failure

/-- Passes through the tables on the way from `place` on; those that are missing are implicit. -/
def pass : Key → Key → Build Unit
  | _, [] => pure ()
  | place, k :: ks => do
    match ← lookup place k with
    | none =>
      markImplicit (place ++ [k])
      change place fun es => some (es.replace k (.table []))
    | some (.leaf _) => failure
    | some _ => pure ()
    pass (place ++ [k]) ks

/-- Opens the table at a path, or one more table of the array there. -/
def openTable (path : Key) (inArray : Bool) : Build Unit := do
  let place := path.dropLast
  let last := path.getLast?.getD ""
  pass [] place
  if inArray then
    match ← lookup place last with
    | none | some (.tables _) => change place fun es => some (es.replace last (.tables []))
    | some _ => failure
  else define place last (.table [])

/-- Opens the tables of a dotted key from `place` on, all names but the last; the table reached. -/
def openDotted : Key → Key → Build Key
  | place, [] => return place
  | place, [_] => return place
  | place, k :: ks => do
    markImplicit (place ++ [k])
    openTable (place ++ [k]) false
    openDotted (place ++ [k]) ks

mutual

/-- Defines a pair in the table at `place`. -/
def pair (n : Nat) (place : Key) (k : Key) (v : Value) : Build Unit :=
  match n with
  | 0 => failure
  | n + 1 => do
    let place ← openDotted place k
    let last := k.getLast?.getD ""
    noteKey (place ++ [last])
    inner n place last false v
    let some x := v.toNode | failure
    define place last x
    noteArray place last (v matches .array _)
termination_by structural n

/-- Defines what a value holds, before the name of the value itself is defined. -/
def inner (n : Nat) (place : Key) (k : String) (inArray : Bool) (v : Value) : Build Unit :=
  match n with
  | 0 => failure
  | n + 1 =>
    match v with
    | .array items => do
      noteArray place k true
      elements n place k items
    | .table ps => do
      markImplicit (place ++ [k])
      openTable (place ++ [k]) inArray
      pairs n (place ++ [k]) ps
      if v.toNode.isNone then failure
    | _ => pure ()
termination_by structural n

def elements (n : Nat) (place : Key) (k : String) (items : List Value) : Build Unit :=
  match n, items with
  | 0, _ => failure
  | _ + 1, [] => pure ()
  | n + 1, v :: rest => do
    inner n place k true v
    elements n place k rest
termination_by structural n

def pairs (n : Nat) (place : Key) (ps : List (Key × Value)) : Build Unit :=
  match n, ps with
  | 0, _ => failure
  | _ + 1, [] => pure ()
  | n + 1, (k, v) :: rest => do
    pair n place k v
    pairs n place rest
termination_by structural n

end

/-- Opens the table of a header. -/
def header (k : Key) (inArray : Bool) : Build Unit := do
  openTable k inArray
  noteArray k "" false
  noteKey k

/-- The items of a document, from those in the table at `place` on. -/
def items (n : Nat) : Key → List Item → Build Unit
  | _, [] => pure ()
  | place, .pair k v :: rest => do
    pair n place k v
    items n place rest
  | _, .header k :: rest => do
    header k false
    items n k rest
  | _, .arrayHeader k :: rest => do
    header k true
    items n k rest

end Build

/-- Reads a document. A byte order mark at its beginning is passed over. -/
def read (cs : List Char) : Option Document :=
  let cs := match cs with
    | '\ufeff' :: rest => rest
    | cs => cs
  if isClean cs then
    match items (cs.length + 1) cs with
    | some is => (Build.items (4 * cs.length + 4) [] is ⟨[], [], [], []⟩).map (·.2)
    | none => none
  else none

/-! ## Writing keys -/

/-- A name of a key as it is shown: between quotes unless it is bare. -/
def showName (s : String) : String :=
  if s ≠ "" ∧ s.toList.all isBare then s
  else
    let hex (n : Nat) : List Char :=
      ['0', '0', Nat.digitChar (n / 16), Nat.digitChar (n % 16)]
    let shown := s.toList.flatMap fun c =>
      match c.toNat with
      | 0x22 => ['\\', '"']
      | 0x5C => ['\\', '\\']
      | 0x08 => ['\\', 'b']
      | 0x09 => ['\\', 't']
      | 0x0A => ['\\', 'n']
      | 0x0C => ['\\', 'f']
      | 0x0D => ['\\', 'r']
      | n => if n < 0x20 ∨ n = 0x7F then '\\' :: 'u' :: hex n else [c]
    String.ofList ('"' :: shown ++ ['"'])

def showKey (k : Key) : String := ".".intercalate (k.map showName)

end Toml
end BlockCalc
