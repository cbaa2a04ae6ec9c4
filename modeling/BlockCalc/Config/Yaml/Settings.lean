import BlockCalc.Config
import BlockCalc.Config.Yaml.Scalar
import BlockCalc.Config.Yaml.Visit

/-!
# BlockCalc.Config.Yaml.Settings

A configuration written in YAML. Keys match exactly, and a key that means nothing is an error.
Mappings can be merged into another under the key `<<`: what a mapping says itself comes first, and
then the first of those merged into it.
-/

namespace BlockCalc
namespace Config

/-- What a node gives a setting: text settings take any scalar as it is written. -/
def yamlValue (s : Setting) : Yaml.Node → Option SettingValue
  | .scalar tag text plain =>
    match Yaml.Scalar.ofTagged tag text plain, s with
    | none, _ => none
    | some .null, _ => some .unset
    | some (.integer n), .maxDepth => if n < 0x8000000000000000 then some (.number n) else none
    | some (.fraction (some n)), .maxDepth => some (.number n)
    | some _, .maxDepth => none
    | some (.text t), _ => some (.text t)
    | some _, _ => some (.text (Text.ofString text))
  | _ => none

/-- The name that a key stands for, if it stands for anything. -/
def yamlName : Yaml.Node → Option (Option Text)
  | .scalar tag text plain =>
    match Yaml.Scalar.ofTagged tag text plain with
    | none => none
    | some .null => some none
    | some (.text t) => some (some t)
    | some _ => some (some (Text.ofString text))
  | _ => none

/-- The name under which mappings are merged into another. -/
def mergeName : String := "<<"

/-- Whether a key asks for merging. One that is quoted has the name but does not ask for it. -/
def isMerge : Yaml.Node → Bool
  | .scalar tag text plain => text == mergeName && (tag == some "!!merge" || (tag.isNone && plain))
  | _ => false

/-- Whether two keys of a mapping are the same as they are written. -/
def sameKey : Yaml.Node → Yaml.Node → Bool
  | .scalar _ a _, .scalar _ b _ => a == b
  | .sequence _, .sequence _ => true
  | .mapping _, .mapping _ => true
  | .alias _ a _, .alias _ b _ => a == b
  | _, _ => false

def keysDiffer : List (Yaml.Node × Yaml.Node) → Bool
  | [] => true
  | p :: rest => !rest.any (fun q => sameKey p.1 q.1) && keysDiffer rest

/-- A configuration in the making: the settings made so far, the names used, and the visits it
took. -/
structure Draft where
  config : Config
  used : List Text
  tally : Yaml.Tally

abbrev Drafting (α : Type) := StateT Draft Option α

/-- Visits a node of the document. -/
def visit (d : Yaml.Document) (trail : Yaml.Trail) (x : Yaml.Node) :
    Drafting (Yaml.Node × Yaml.Trail) := fun draft =>
  match d.visit trail x draft.tally with
  | some (y, trail, tally) => some ((y, trail), { draft with tally := tally })
  | none => none

def make (s : Setting) (v : SettingValue) : Drafting Unit := fun draft =>
  match draft.config.set s v with
  | some c => some ((), { draft with config := c })
  | none => none

def markUsed (name : Text) : Drafting Unit :=
  modify fun draft => { draft with used := name :: draft.used }

/-- Makes the settings of the pairs of a mapping. A pair with nothing as its key is passed over. In
a mapping that is merged so is a name already used, whether it means anything or not; elsewhere a
name is used once. -/
def setPairs (d : Yaml.Document) (trail : Yaml.Trail) (merged : Bool) :
    List (Yaml.Node × Yaml.Node) → Drafting Unit
  | [] => pure ()
  | (k, v) :: rest => do
    if !isMerge k then
      let (key, _) ← visit d trail k
      let some name? := yamlName key | failure
      if let some name := name? then
        if (← get).used.contains name then
          if !merged then failure
        else
          let some s := Setting.ofName? name | failure
          markUsed name
          let (x, _) ← visit d trail v
          let some value := yamlValue s x | failure
          make s value
    setPairs d trail merged rest

/-- The mappings that a value asks to be merged, each as a node of its own. -/
def mergedNodes (d : Yaml.Document) (v : Yaml.Node) : Option (List Yaml.Node) :=
  let isMapping : Yaml.Node → Bool
    | .mapping _ => true
    | .alias _ _ target =>
      match d.target? target with
      | some (.mapping _) => true
      | _ => false
    | _ => false
  let nodes := match v with
    | .sequence items => items
    | v => [v]
  if nodes.all isMapping then some nodes else none

/-- Goes once more over the keys of a mapping, before something is merged into it. The name that
asks for merging is one of those used. -/
def visitKeys (d : Yaml.Document) (trail : Yaml.Trail) :
    List (Yaml.Node × Yaml.Node) → Drafting Unit
  | [] => markUsed (Text.ofString mergeName)
  | (k, _) :: rest => do
    let _ ← visit d trail k
    visitKeys d trail rest

mutual

/-- Makes the settings of a mapping, and then those of the mappings merged into it. -/
def setMapping (n : Nat) (d : Yaml.Document) (trail : Yaml.Trail) (merged : Bool)
    (pairs : List (Yaml.Node × Yaml.Node)) : Drafting Unit :=
  match n with
  | 0 => failure
  | n + 1 => do
    if !keysDiffer pairs then failure
    setPairs d trail merged pairs
    if let some (_, v) := pairs.find? (fun p => isMerge p.1) then
      if !merged then visitKeys d trail pairs
      let some nodes := mergedNodes d v | failure
      setMerged n d trail nodes
termination_by structural n

/-- Makes the settings of mappings that are merged, the first ones first. -/
def setMerged (n : Nat) (d : Yaml.Document) (trail : Yaml.Trail) (nodes : List Yaml.Node) :
    Drafting Unit :=
  match n, nodes with
  | 0, _ => failure
  | _ + 1, [] => pure ()
  | n + 1, x :: rest => do
    match ← visit d trail x with
    | (.mapping pairs, inner) => setMapping n d inner true pairs
    | _ => failure
    setMerged n d trail rest
termination_by structural n

end

/-- The settings of a document, which is a mapping or nothing. -/
def setDocument (n : Nat) (d : Yaml.Document) : Drafting Unit := do
  modify fun draft => { draft with tally := ⟨draft.tally.visits + 1, draft.tally.aliased⟩ }
  match ← visit d [] d.root with
  | (.mapping pairs, _) => setMapping n d [] false pairs
  | (.scalar tag text plain, _) =>
    if Yaml.Scalar.ofTagged tag text plain ≠ some .null then failure
  | _ => failure

def ofYaml (path : String) (cs : List Char) : Except ConfigError Config :=
  match Yaml.read cs with
  | none => .error (.malformed path)
  | some none => .ok default
  | some (some d) =>
    match setDocument ((cs.length + 2) * (cs.length + 2)) d ⟨default, [], Yaml.Tally.none⟩ with
    | some (_, draft) => .ok draft.config
    | none => .error (.malformed path)

end Config
end BlockCalc
