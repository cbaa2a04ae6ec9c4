import BlockCalc.Text.Numeral
import BlockCalc.Text.Quoted

/-!
# BlockCalc.Command.Flag

The flags of the command line. A flag has a long name and perhaps a letter; it is a switch, or it
takes a value. `Flag.read` sorts a list of arguments into flags and the rest.
-/

namespace BlockCalc

inductive Flag where
  | config
  | verbose
  | division
  | maxDepth
  | raw
  | write
  | check
  | fullScreen
  | help
deriving DecidableEq, Repr, Inhabited

/-- What follows a flag. -/
inductive FlagKind where
  | text
  | number
  | switch
deriving DecidableEq, Repr, Inhabited

/-- The flags that were given, each with its last value, and the other arguments. -/
structure Flags where
  config : Option String
  verbose : Bool
  division : Option String
  maxDepth : Option Int
  raw : Bool
  write : Bool
  check : Bool
  fullScreen : Bool
  help : Bool
  rest : List String
deriving DecidableEq, Repr, Inhabited

/-- What is wrong with a value. -/
inductive FlagValueError where
  | number (e : NumeralError)
  | truth
deriving DecidableEq, Repr, Inhabited

/-- What is wrong with a list of flags. -/
inductive FlagError where
  | badSyntax (argument : String)
  | unknown (name : String)
  | unknownLetter (letter : Char) (group : String)
  | missingValue (argument : String)
  | badValue (flag : Flag) (value : String) (e : FlagValueError)
deriving DecidableEq, Repr, Inhabited

namespace Flag

def name : Flag → String
  | .config => "config"
  | .verbose => "verbose"
  | .division => "division"
  | .maxDepth => "max-depth"
  | .raw => "raw"
  | .write => "write"
  | .check => "check"
  | .fullScreen => "tui"
  | .help => "help"

def letter? : Flag → Option Char
  | .verbose => some 'v'
  | .write => some 'w'
  | .help => some 'h'
  | _ => none

def kind : Flag → FlagKind
  | .config | .division => .text
  | .maxDepth => .number
  | _ => .switch

/-- How a flag is called in a message. -/
def label (f : Flag) : String :=
  match f.letter? with
  | some c => s!"-{c}, --{f.name}"
  | none => s!"--{f.name}"

end Flag

namespace FlagValueError

def message (value : String) : FlagValueError → String
  | .number .notANumber => s!"strconv.ParseInt: parsing {Quoted.string value}: invalid syntax"
  | .number .outOfRange => s!"strconv.ParseInt: parsing {Quoted.string value}: value out of range"
  | .truth => s!"strconv.ParseBool: parsing {Quoted.string value}: invalid syntax"

end FlagValueError

def FlagError.message : FlagError → String
  | .badSyntax argument => s!"bad flag syntax: {argument}"
  | .unknown name => s!"unknown flag: --{name}"
  | .unknownLetter c group => s!"unknown shorthand flag: {Quoted.glyph (.char c)} in -{group}"
  | .missingValue argument => s!"flag needs an argument: {argument}"
  | .badValue flag value e =>
    s!"invalid argument {Quoted.string value} for {Quoted.string flag.label} flag: " ++
      e.message value

namespace Flags

def none : Flags := ⟨.none, false, .none, .none, false, false, false, false, false, []⟩

def setSwitch (fs : Flags) (b : Bool) : Flag → Flags
  | .verbose => { fs with verbose := b }
  | .raw => { fs with raw := b }
  | .write => { fs with write := b }
  | .check => { fs with check := b }
  | .fullScreen => { fs with fullScreen := b }
  | .help => { fs with help := b }
  | _ => fs

def setText (fs : Flags) (s : String) : Flag → Flags
  | .config => { fs with config := some s }
  | .division => { fs with division := some s }
  | _ => fs

/-- Gives a flag a value. -/
def set (fs : Flags) (f : Flag) (value : String) : Except FlagError Flags :=
  match f.kind with
  | .text => .ok (fs.setText value f)
  | .number =>
    match Numeral.integer value with
    | .ok n => .ok { fs with maxDepth := some n }
    | .error e => .error (.badValue f value (.number e))
  | .switch =>
    match Numeral.truth? value with
    | some b => .ok (fs.setSwitch b f)
    | .none => .error (.badValue f value .truth)

def add (fs : Flags) (argument : String) : Flags := { fs with rest := fs.rest ++ [argument] }

end Flags

namespace Flag

/-- The text before the first equals sign, and the text after it if there is one. -/
def splitValue (cs : List Char) : String × Option String :=
  match cs.span (· != '=') with
  | (name, _ :: value) => (String.ofList name, some (String.ofList value))
  | (name, []) => (String.ofList name, none)

/-- The first byte of a character as a character of its own. -/
def firstByte (c : Char) : Char :=
  match String.utf8EncodeChar c with
  | b :: _ => Char.ofNat b.toNat
  | [] => c

/-- Reads a group of letters, all of them switches. A letter may have a value after an equals
sign; a group that goes on with `test.` is passed over. -/
def readLetters (known : List Flag) : Flags → List Char → Except FlagError Flags
  | fs, [] => .ok fs
  | fs, c :: rest =>
    if "test.".toList.isPrefixOf (c :: rest) then .ok fs
    else
      match known.find? (fun f => f.letter? == some c) with
      | none => .error (.unknownLetter (firstByte c) (String.ofList (c :: rest)))
      | some f =>
        match rest with
        | '=' :: d :: value => fs.set f (String.ofList (d :: value))
        | rest =>
          match fs.set f "true" with
          | .ok fs => readLetters known fs rest
          | .error e => .error e

/-- Sorts arguments into the flags in `known` and the rest. Flags stand anywhere; after `--` there
are none, and a single dash is no flag. -/
def read (known : List Flag) : Flags → List String → Except FlagError Flags
  | fs, [] => .ok fs
  | fs, a :: as =>
    match a.toList with
    | ['-', '-'] => .ok { fs with rest := fs.rest ++ as }
    | '-' :: '-' :: long =>
      if long.head? = some '-' ∨ long.head? = some '=' then .error (.badSyntax a)
      else
        match splitValue long with
        | (name, value?) =>
          match known.find? (·.name == name) with
          | none => .error (.unknown name)
          | some f =>
            match value?.orElse fun _ => if f.kind = .switch then some "true" else none with
            | some value =>
              match fs.set f value with
              | .ok fs => read known fs as
              | .error e => .error e
            | none =>
              match as with
              | [] => .error (.missingValue a)
              | value :: as =>
                match fs.set f value with
                | .ok fs => read known fs as
                | .error e => .error e
    | '-' :: c :: letters =>
      match readLetters known fs (c :: letters) with
      | .ok fs => read known fs as
      | .error e => .error e
    | _ => read known (fs.add a) as
termination_by _ as => as.length

/-! ## Arguments without their flags

To find the command among the arguments, flags are told from the rest before it is known which of
them the command has: a flag that is no switch, or is unknown, takes the argument after it. -/

/-- Whether an argument is a flag with its value in the next one. -/
def takesNext (known : List Flag) (a : String) : Bool :=
  match a.toList with
  | '-' :: '-' :: long =>
    !long.contains '=' && !(known.any fun f => f.name == String.ofList long && f.kind == .switch)
  | ['-', c] =>
    c.toNat < 0x80 && c != '=' && !(known.any fun f => f.letter? == some c && f.kind == .switch)
  | _ => false

def isFlag (a : String) : Bool := a.startsWith "-"

/-- The arguments that are no flags and no values of flags. A flag that takes the last argument
ends the list. -/
def words (known : List Flag) : List String → List String
  | [] => []
  | a :: as =>
    if a = "--" then []
    else if takesNext known a then
      match as with
      | _ :: b :: rest => words known (b :: rest)
      | _ => []
    else if a ≠ "" ∧ !isFlag a then a :: words known as
    else words known as
termination_by as => as.length

/-- The arguments without the first occurrence of `x` that is no flag and no value of one. -/
def without (known : List Flag) (x : String) : List String → List String
  | [] => []
  | a :: as =>
    if a = "--" then a :: as
    else if takesNext known a then
      match as with
      | [] => [a]
      | b :: rest => a :: b :: without known x rest
    else if !isFlag a ∧ a = x then as
    else a :: without known x as
termination_by as => as.length

end Flag
end BlockCalc
