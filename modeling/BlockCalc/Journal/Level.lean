import BlockCalc.Text.Blank
import BlockCalc.Text.LowerCase
import BlockCalc.Text.Quoted

/-!
# BlockCalc.Journal.Level

How much of the journal is shown. The name of a level may be written in any case and with blanks
around it; an empty name means warnings.
-/

namespace BlockCalc

inductive LogLevel where
  | debug
  | info
  | warn
  | error
deriving DecidableEq, Repr, Inhabited

/-- There is no level of that name. -/
structure UnknownLevel where
  name : Text
deriving DecidableEq, Repr, Inhabited

def UnknownLevel.message (e : UnknownLevel) : String :=
  s!"unknown log level {Quoted.text e.name}"

namespace LogLevel

def name : LogLevel → String
  | .debug => "DEBUG"
  | .info => "INFO"
  | .warn => "WARN"
  | .error => "ERROR"

def parse (t : Text) : Except UnknownLevel LogLevel :=
  match lowerString (Text.trim t).toString with
  | "debug" => .ok .debug
  | "info" => .ok .info
  | "" | "warn" | "warning" => .ok .warn
  | "error" => .ok .error
  | _ => .error ⟨t⟩

end LogLevel
end BlockCalc
