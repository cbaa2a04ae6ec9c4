import BlockCalc.Command.Flag

/-!
# BlockCalc.Command.Job

What a command line asks for. The first word names the command; the flags are read next, and the
number of the other arguments is checked last.
-/

namespace BlockCalc

inductive Command where
  | eval
  | run
  | tokens
  | ast
  | format
  | analyze
  | converse
  | help
  | completion
deriving DecidableEq, Repr, Inhabited

/-- Why a command line asks for nothing. -/
inductive UsageError where
  | flag (e : FlagError)
  | unknownCommand (word parent : String)
  | tooFew (least given : Nat)
  | wrongNumber (wanted given : Nat)
deriving DecidableEq, Repr, Inhabited

def programName : String := "pascalcalc"

def UsageError.message : UsageError → String
  | .flag e => e.message
  | .unknownCommand word parent =>
    s!"unknown command {Quoted.string word} for {Quoted.string parent}"
  | .tooFew least given => s!"requires at least {least} arg(s), only received {given}"
  | .wrongNumber wanted given => s!"accepts {wanted} arg(s), received {given}"

namespace Command

def name : Command → String
  | .eval => "eval"
  | .run => "run"
  | .tokens => "tokens"
  | .ast => "ast"
  | .format => "fmt"
  | .analyze => "analyze"
  | .converse => "repl"
  | .help => "help"
  | .completion => "completion"

def all : List Command :=
  [.eval, .run, .tokens, .ast, .format, .analyze, .converse, .help, .completion]

def ofName? (s : String) : Option Command := all.find? (·.name == s)

/-- The flags of all commands. -/
def sharedFlags : List Flag := [.config, .verbose, .division, .maxDepth]

def ownFlags : Command → List Flag
  | .ast => [.raw]
  | .format => [.write, .check]
  | .converse => [.fullScreen]
  | _ => []

def flags (c : Command) : List Flag := sharedFlags ++ c.ownFlags ++ [.help]

/-- Whether a command can do with the arguments given. -/
def checkArguments (c : Command) (args : List String) : Except UsageError Unit :=
  match c, args with
  | .eval, [] | .format, [] => .error (.tooFew 1 0)
  | .run, [_] | .tokens, [_] | .ast, [_] | .analyze, [_] => .ok ()
  | .run, _ | .tokens, _ | .ast, _ | .analyze, _ => .error (.wrongNumber 1 args.length)
  | .converse, a :: _ => .error (.unknownCommand a s!"{programName} {Command.converse.name}")
  | _, _ => .ok ()

end Command

/-- A command to be carried out. -/
inductive Action where
  | eval (source : String)
  | run (path : String)
  | tokens (path : String)
  | ast (path : String) (raw : Bool)
  | format (targets : List String) (write check : Bool)
  | analyze (path : String)
  | converse (fullScreen : Bool)
  | explain
deriving DecidableEq, Repr, Inhabited

structure Job where
  flags : Flags
  action : Action
deriving DecidableEq, Repr, Inhabited

namespace Job

/-- The action of a command whose arguments were checked. -/
def actionOf (c : Command) (fs : Flags) : Action :=
  match c, fs.rest with
  | .eval, args => .eval (" ".intercalate args)
  | .run, [p] => .run p
  | .tokens, [p] => .tokens p
  | .ast, [p] => .ast p fs.raw
  | .format, targets => .format targets fs.write fs.check
  | .analyze, [p] => .analyze p
  | .converse, _ => .converse fs.fullScreen
  | _, _ => .explain

/-- Reads the flags of a command and checks its arguments. Who asks for help gets it whatever the
arguments are. -/
def ofCommand (c : Command) (args : List String) : Except UsageError Job :=
  match Flag.read c.flags Flags.none args with
  | .error e => .error (.flag e)
  | .ok fs =>
    if fs.help then .ok ⟨fs, .explain⟩
    else
      match c.checkArguments fs.rest with
      | .error e => .error e
      | .ok () => .ok ⟨fs, actionOf c fs⟩

/-- What a list of arguments asks for. Without a command it asks for an explanation. -/
def ofArguments (args : List String) : Except UsageError Job :=
  match Flag.words Command.sharedFlags args with
  | [] =>
    match Flag.read (Command.sharedFlags ++ [.help]) Flags.none args with
    | .error e => .error (.flag e)
    | .ok fs => .ok ⟨fs, .explain⟩
  | word :: _ =>
    match Command.ofName? word with
    | none => .error (.unknownCommand word programName)
    | some c => ofCommand c (Flag.without Command.sharedFlags word args)

end Job
end BlockCalc
