import BlockCalc.Engine
import BlockCalc.Files.Sources

/-!
# BlockCalc.Files.Formatting

Putting program files into canonical layout. The files are written back, listed if they are not
yet in that layout, or shown; a file that is no program stops the work.
-/

namespace BlockCalc

/-- What is done with the files. Writing comes before listing, and without either they are shown. -/
structure FormatMode where
  write : Bool
  check : Bool
deriving DecidableEq, Repr, Inhabited

/-- The work so far. -/
structure Formatting where
  tree : FileTree
  output : Text
  changed : Nat
deriving DecidableEq, Repr, Inhabited

/-- A file that is no program. -/
structure NotAProgram where
  place : Place
  source : Text
  cause : Rejection

namespace Formatting

def start (tree : FileTree) : Formatting := ⟨tree, [], 0⟩

/-- Deals with the file at `p`, which reads `source` now and `formatted` in canonical layout. -/
def settle (w : Formatting) (mode : FormatMode) (p : Place) (source formatted : Text) :
    Formatting :=
  if source = formatted then
    if mode.write || mode.check then w else { w with output := w.output ++ formatted }
  else
    let w := { w with changed := w.changed + 1 }
    if mode.write then { w with tree := w.tree.put p formatted }
    else if mode.check then
      { w with output := w.output ++ Text.ofString p.render ++ [Text.newline] }
    else { w with output := w.output ++ formatted }

/-- Deals with files one after another, up to one that is no program. A place without a file is
passed over. That does not come up: the list is that of the files of the tree, and none of them goes
away while they are dealt with (`Formatting.exists_file_of_run`). -/
def run (mode : FormatMode) : Formatting → List Place → Formatting × Option NotAProgram
  | w, [] => (w, none)
  | w, p :: rest =>
    match w.tree.at? p with
    | some (.file source) =>
      match formatSource source with
      | .ok formatted => run mode (w.settle mode p source formatted) rest
      | .error r => (w, some ⟨p, source, r⟩)
    | _ => run mode w rest

end Formatting
end BlockCalc
