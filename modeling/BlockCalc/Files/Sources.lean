import BlockCalc.Files.Tree

/-!
# BlockCalc.Files.Sources

The program files that a list of targets leads to. A target is a file, or a directory with all
that is in it at any depth. However often a file is reached it is listed once, and the list is in
the order of the absolute paths.
-/

namespace BlockCalc

/-- The extension of program files. -/
def sourceExtension : String := ".pas"

def Place.isSource (p : Place) : Bool := Path.extension (p.getLast?.getD "") == sourceExtension

/-- A target that leads to nothing. -/
structure BadTarget where
  path : String
  cause : FileError
deriving DecidableEq, Repr, Inhabited

def BadTarget.message (b : BadTarget) : String :=
  s!"stat {b.path}: stat {b.path}: {b.cause.message}"

namespace FileTree

/-- The files a target leads to. -/
def reach (t : FileTree) (cwd : Place) (target : String) : Except BadTarget (List Place) :=
  match t.find cwd target with
  | .error e => .error ⟨target, e⟩
  | .ok (p, .file _) => .ok [p]
  | .ok (p, .directory) => .ok (t.below p)

/-- The files all targets lead to, up to the first target that leads to nothing. -/
def reachAll (t : FileTree) (cwd : Place) : List String → Except BadTarget (List Place)
  | [] => .ok []
  | target :: rest =>
    match t.reach cwd target with
    | .error e => .error e
    | .ok ps =>
      match reachAll t cwd rest with
      | .error e => .error e
      | .ok qs => .ok (ps ++ qs)

/-- The program files the targets lead to, each of them once, in the order of their paths. -/
def sources (t : FileTree) (cwd : Place) (targets : List String) :
    Except BadTarget (List Place) :=
  match t.reachAll cwd targets with
  | .error e => .error e
  | .ok ps =>
    .ok ((ps.filter Place.isSource).eraseDups.mergeSort fun p q => decide (p.render ≤ q.render))

end FileTree
end BlockCalc
