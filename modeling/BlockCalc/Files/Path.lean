import BlockCalc.Text.Glyph

/-!
# BlockCalc.Files.Path

Slash-separated paths. Cleaning a path is lexical: empty and `.` components go away, and `..`
takes away the component before it.
-/

namespace BlockCalc
namespace Path

/-- The components of a path, empty ones included. -/
def splitSlashes (p : String) : List String :=
  (Text.splitAt (.char '/') (Text.ofString p)).map Text.toString

def isAbsolute (p : String) : Bool := p.startsWith "/"

/-- One more component of a path whose clean components are `done`, the last one first. -/
def push (rooted : Bool) (done : List String) (c : String) : List String :=
  if c = "" ∨ c = "." then done
  else if c = ".." then
    match done with
    | [] => if rooted then [] else [".."]
    | d :: rest => if d = ".." then ".." :: done else rest
  else c :: done

/-- The components that are left of a path. -/
def parts (p : String) : List String :=
  ((splitSlashes p).foldl (push (isAbsolute p)) []).reverse

/-- The shortest path that means the same. -/
def clean (p : String) : String :=
  let body := "/".intercalate (parts p)
  if isAbsolute p then "/" ++ body else if body = "" then "." else body

/-- Two paths one after another, cleaned; an empty one is left out. -/
def join (p q : String) : String :=
  if p = "" then if q = "" then "" else clean q
  else if q = "" then clean p
  else clean (p ++ "/" ++ q)

/-- The end of the last component from its last dot on, where it has one. -/
def extension (p : String) : String :=
  let name := ((splitSlashes p).getLast?.getD "").toList
  if '.' ∈ name then
    String.ofList ('.' :: (name.reverse.takeWhile (· != '.')).reverse)
  else ""

end Path
end BlockCalc
