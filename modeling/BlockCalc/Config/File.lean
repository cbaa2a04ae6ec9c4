import BlockCalc.Config.Toml.Settings
import BlockCalc.Config.Yaml.Settings
import BlockCalc.Text.LowerCase

/-!
# BlockCalc.Config.File

The file a configuration is read from. Its extension says how it is written.
-/

namespace BlockCalc
namespace Config

/-- The characters of a text that has no stray bytes. -/
def characters (t : Text) : Option (List Char) :=
  t.mapM fun
    | .char c => some c
    | .stray _ => none

def ofContent (path : String) (content : Text) : Except ConfigError Config :=
  let read (f : String → List Char → Except ConfigError Config) : Except ConfigError Config :=
    match characters content with
    | some cs => f path cs
    | none => .error (.malformed path)
  match lowerString (Path.extension path) with
  | ".toml" => read ofToml
  | ".yaml" | ".yml" => read ofYaml
  | _ => .error (.unsupported path)

/-- Reads the configuration at a path; without one there are the defaults. -/
def load (tree : FileTree) (cwd : Place) (path : String) : Except ConfigError Config :=
  if path = "" then .ok default
  else
    match tree.read cwd path with
    | .error e => .error (.unreadable path e)
    | .ok content =>
      match ofContent path content with
      | .error e => .error e
      | .ok c => .ok (if c.prompt = [] then { c with prompt := Text.ofString defaultPrompt } else c)

end Config
end BlockCalc
