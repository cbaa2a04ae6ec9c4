import BlockCalc.Config
import BlockCalc.Config.Toml.Document

/-!
# BlockCalc.Config.Toml.Settings

A configuration written in TOML. Keys match without regard to case. A value of the wrong kind is
reported before keys that mean nothing, and those are reported all together.
-/

namespace BlockCalc

/-- The setting of a name without regard to case. The long s and the sign for kelvin are letters
in other cases too. -/
def Setting.ofFoldedName? (s : String) : Option Setting :=
  let fold (c : Char) : Char :=
    if c.toNat = 0x17F then 's' else if c.toNat = 0x212A then 'k' else c.toLower
  Setting.ofName? (s.toList.map fun c => .char (fold c))

namespace Config

def tomlValue : Toml.Node → Option SettingValue
  | .leaf (.string s) => some (.text (Text.ofString s))
  | .leaf (.integer n) => some (.number n)
  | _ => none

/-- The settings of the entries at the top of a document. -/
def setEntries : Config → Toml.Entries → Option Config
  | c, [] => some c
  | c, (k, v) :: rest =>
    match Setting.ofFoldedName? k with
    | none => setEntries c rest
    | some s =>
      match (tomlValue v).bind (c.set s) with
      | some c => setEntries c rest
      | none => none

/-- The keys of a document that are no settings, in order. -/
def unknownKeys (d : Toml.Document) : List String :=
  let isKnown : Toml.Key → Bool
    | [k] => (Setting.ofFoldedName? k).isSome
    | _ => false
  ((d.keys.filter (!isKnown ·)).map Toml.showKey).mergeSort fun a b => decide (a ≤ b)

def ofToml (path : String) (cs : List Char) : Except ConfigError Config :=
  match Toml.read cs with
  | none => .error (.malformed path)
  | some d =>
    match setEntries default d.entries with
    | none => .error (.malformed path)
    | some c =>
      match unknownKeys d with
      | [] => .ok c
      | keys => .error (.unknownKeys path keys)

end Config
end BlockCalc
