import BlockCalc.Files.Tree
import BlockCalc.Session

/-!
# BlockCalc.Config

The configuration, what can be set in it, and what can be wrong with the file it is read from.
-/

namespace BlockCalc

structure Config where
  division : Text
  maxDepth : Int
  logLevel : Text
  prompt : Text
  historyFile : Text
deriving DecidableEq, Repr, Inhabited

/-- What can be set. -/
inductive Setting where
  | division
  | maxDepth
  | logLevel
  | prompt
  | historyFile
deriving DecidableEq, Repr, Inhabited

/-- A value read for a setting. -/
inductive SettingValue where
  | text (t : Text)
  | number (n : Int)
  | unset
deriving DecidableEq, Repr, Inhabited

/-- Why a file gives no configuration. -/
inductive ConfigError where
  | unreadable (path : String) (e : FileError)
  | unsupported (path : String)
  | malformed (path : String)
  | unknownKeys (path : String) (keys : List String)
deriving DecidableEq, Repr, Inhabited

def ConfigError.message : ConfigError → String
  | .unreadable path e => s!"read config: {e.attempt} {path}: {e.message}"
  | .unsupported path =>
    s!"config {path}: unsupported format {Quoted.string (Path.extension path)} " ++
      "(want .toml, .yaml or .yml)"
  | .malformed path => s!"parse config {path}: malformed document"
  | .unknownKeys path keys => s!"parse config {path}: unknown keys " ++ ", ".intercalate keys

namespace Setting

def name : Setting → String
  | .division => "division"
  | .maxDepth => "max_depth"
  | .logLevel => "log_level"
  | .prompt => "prompt"
  | .historyFile => "history_file"

def all : List Setting := [.division, .maxDepth, .logLevel, .prompt, .historyFile]

def ofName? (name : Text) : Option Setting := all.find? fun s => Text.ofString s.name == name

end Setting

namespace Config

/-- The configuration without a file. -/
def default : Config := ⟨[], 0, Text.ofString "warn", Text.ofString defaultPrompt, []⟩

/-- Changes a setting; nothing where the value is not of its kind. -/
def set (c : Config) : Setting → SettingValue → Option Config
  | _, .unset => some c
  | .division, .text t => some { c with division := t }
  | .logLevel, .text t => some { c with logLevel := t }
  | .prompt, .text t => some { c with prompt := t }
  | .historyFile, .text t => some { c with historyFile := t }
  | .maxDepth, .number n => some { c with maxDepth := n }
  | _, _ => none

/-- Where the history of conversations is kept: in a file of its own, or in the home directory. -/
def historyPath? (c : Config) (home : String) : Option String :=
  if c.historyFile ≠ [] then some c.historyFile.toString
  else if home ≠ "" then some (Path.join home ".pascalcalc_history")
  else none

end Config
end BlockCalc
