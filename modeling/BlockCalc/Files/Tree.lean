import BlockCalc.Files.Path
import BlockCalc.Text.Glyph

/-!
# BlockCalc.Files.Tree

A tree of files and directories. A file is known by the names on the way from the root to it; every
directory on that way exists with it.
-/

namespace BlockCalc

/-- The names on the way from the root. -/
abbrev Place := List String

structure FileTree where
  files : List (Place × Text)
  directories : List Place
deriving DecidableEq, Repr, Inhabited

/-- Why a path leads to nothing that can be used. -/
inductive FileError where
  | notFound
  | notDirectory
  | isDirectory
  | badName
  | nameTooLong
deriving DecidableEq, Repr, Inhabited

def FileError.message : FileError → String
  | .notFound => "no such file or directory"
  | .notDirectory => "not a directory"
  | .isDirectory => "is a directory"
  | .badName => "invalid argument"
  | .nameTooLong => "file name too long"

/-- What was tried with a file: a directory can be opened, but not read. -/
def FileError.attempt : FileError → String
  | .isDirectory => "read"
  | _ => "open"

/-- What a path leads to. -/
inductive Found where
  | file (content : Text)
  | directory
deriving DecidableEq, Repr, Inhabited

def Place.render (c : Place) : String := "/" ++ "/".intercalate c

namespace FileTree

/-- A directory exists if it was made, or if there is something in it. -/
def isDirectory (t : FileTree) (c : Place) : Bool :=
  c.isEmpty || t.directories.any (fun d => c.isPrefixOf d) ||
    t.files.any fun f => c.isPrefixOf f.1 && c.length < f.1.length

def at? (t : FileTree) (c : Place) : Option Found :=
  match t.files.lookup c with
  | some content => some (.file content)
  | none => if t.isDirectory c then some .directory else none

/-- Goes on from a directory by one component of a path. -/
def enter (t : FileTree) (here : Place) (name : String) : Except FileError Place :=
  match t.at? here with
  | none => .error .notFound
  | some (.file _) => .error .notDirectory
  | some .directory =>
    if name = "" ∨ name = "." then .ok here
    else if name = ".." then .ok here.dropLast
    else if 255 < name.utf8ByteSize then .error .nameTooLong
    else .ok (here ++ [name])

/-- The place a path names, seen from the directory `cwd`. All but the last component have to be
directories; the last one need not exist. -/
def locate (t : FileTree) (cwd : Place) (path : String) : Except FileError Place :=
  if path.toList.contains (Char.ofNat 0) then .error .badName
  else if path = "" then .error .notFound
  else if 4096 ≤ path.utf8ByteSize then .error .nameTooLong
  else
    (Path.splitSlashes path).foldlM (t.enter) (if Path.isAbsolute path then [] else cwd)

/-- What a path leads to, and where that is. -/
def find (t : FileTree) (cwd : Place) (path : String) : Except FileError (Place × Found) :=
  match t.locate cwd path with
  | .error e => .error e
  | .ok c =>
    match t.at? c with
    | none => .error .notFound
    | some found => .ok (c, found)

/-- The content of the file a path leads to. -/
def read (t : FileTree) (cwd : Place) (path : String) : Except FileError Text :=
  match t.find cwd path with
  | .error e => .error e
  | .ok (_, .directory) => .error .isDirectory
  | .ok (_, .file content) => .ok content

/-- The tree with a file at the given place. -/
def put (t : FileTree) (c : Place) (content : Text) : FileTree :=
  { t with files := (c, content) :: t.files.filter (·.1 != c) }

/-- Creates or replaces the file a path names, in a directory that exists. -/
def write (t : FileTree) (cwd : Place) (path : String) (content : Text) :
    Except FileError FileTree :=
  match t.locate cwd path with
  | .error e => .error e
  | .ok c =>
    if t.isDirectory c then .error .isDirectory
    else if t.isDirectory c.dropLast then .ok (t.put c content)
    else .error .notFound

/-- The files below a directory, at any depth. -/
def below (t : FileTree) (c : Place) : List Place :=
  (t.files.map (·.1)).filter fun f => c.isPrefixOf f && c.length < f.length

end FileTree
end BlockCalc
