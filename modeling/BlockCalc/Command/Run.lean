import BlockCalc.Analysis
import BlockCalc.Command.Job
import BlockCalc.Config.File
import BlockCalc.Conversation
import BlockCalc.Files.Formatting
import BlockCalc.Journal.Level
import BlockCalc.Tree.Dump
import BlockCalc.Tree.Polish

/-!
# BlockCalc.Command.Run

Carrying out a command line in a given tree of files: what it writes, what it changes, and why it
fails if it does. Faults of the command line itself come first, then those of the configuration.
-/

namespace BlockCalc

/-- What a command finds around it. -/
structure Invocation where
  stdin : Text
  tree : FileTree
  cwd : Place
  configPath : String
  home : String
  stamp : Stamp
deriving Inhabited

/-- Why a command fails. A failure of a text comes with that text and with what was tried. -/
inductive CommandError where
  | usage (e : UsageError)
  | config (e : ConfigError)
  | level (e : UnknownLevel)
  | engine (e : UnknownDivision)
  | unreadable (path : String) (e : FileError)
  | failed (attempt : String) (source : Text) (f : Failure)
  | issues (count : Nat)
  | target (e : BadTarget)
  | unformatted (count : Nat)
  | conversation (message : Text)
  | noScreen

def CommandError.message : CommandError → Text
  | .usage e => Text.ofString e.message
  | .config e => Text.ofString e.message
  | .level e => Text.ofString e.message
  | .engine e => Text.ofString s!"configure engine: {e.message}"
  | .unreadable path .notFound => Text.ofString s!"read source: {path} does not exist"
  | .unreadable path e => Text.ofString s!"read source: {e.attempt} {path}: {e.message}"
  | .failed attempt source f => Text.ofString s!"{attempt}: " ++ f.message source
  | .issues count => Text.ofString s!"analysis found {count} issue(s)"
  | .target e => Text.ofString e.message
  | .unformatted count => Text.ofString s!"fmt: {count} file(s) need formatting"
  | .conversation message => message
  | .noScreen => Text.ofString "could not open a new TTY"

structure Outcome where
  stdout : Text
  stderr : Text
  tree : FileTree
  error : Option CommandError

/-- A configuration with what follows from it. -/
structure Setup where
  config : Config
  journal : Journal

namespace Setup

/-- The configuration with what the flags say instead. -/
def override (c : Config) (fs : Flags) : Config :=
  { c with
    division := (fs.division.map Text.ofString).getD c.division
    maxDepth := fs.maxDepth.getD c.maxDepth
    logLevel := if fs.verbose then Text.ofString "debug" else c.logLevel }

/-- The file the configuration is read from. -/
def path (fs : Flags) (i : Invocation) : String :=
  match fs.config with
  | some p => if p = "" then i.configPath else p
  | none => i.configPath

def make (fs : Flags) (i : Invocation) : Except CommandError Setup :=
  match Config.load i.tree i.cwd (path fs i) with
  | .error e => .error (.config e)
  | .ok config =>
    let config := override config fs
    match LogLevel.parse config.logLevel with
    | .error e => .error (.level e)
    | .ok level =>
      match Engine.ofOptions ⟨config.maxDepth, config.division⟩ with
      | .error e => .error (.engine e)
      | .ok engine => .ok ⟨config, ⟨engine, level = .debug, i.stamp⟩⟩

/-- The record of a setup. -/
def record (s : Setup) (path : String) : Record :=
  ⟨"engine configured",
    [("config", .text (Text.ofString path)),
      ("division", .text (Text.ofString s.journal.engine.division.name)),
      ("max_depth", Record.number s.journal.engine.maxDepth)]⟩

end Setup

/-- A line of output. -/
def outputLine (s : String) : Text := Text.ofString s ++ [Text.newline]

namespace Invocation

/-- The text a path names; a single dash names the standard input. -/
def readSource (i : Invocation) (path : String) : Except CommandError Text :=
  if path = "-" then .ok i.stdin
  else
    match i.tree.read i.cwd path with
    | .ok t => .ok t
    | .error e => .error (.unreadable path e)

/-- Does something with the text a path names. -/
def withSource (i : Invocation) (path : String) (f : Text → Outcome) : Outcome :=
  match i.readSource path with
  | .error e => ⟨[], [], i.tree, some e⟩
  | .ok t => f t

def format (i : Invocation) (targets : List String) (mode : FormatMode) : Outcome :=
  match i.tree.sources i.cwd targets with
  | .error e => ⟨[], [], i.tree, some (.target e)⟩
  | .ok places =>
    match Formatting.run mode (Formatting.start i.tree) places with
    | (w, some bad) =>
      ⟨w.output, [], w.tree,
        some (.failed s!"format {bad.place.render}" bad.source (.rejected bad.cause))⟩
    | (w, none) =>
      ⟨w.output, [], w.tree,
        if mode.check && decide (0 < w.changed) then some (.unformatted w.changed) else none⟩

/-- The history a file keeps; a file that cannot be read keeps none. -/
def readHistory (i : Invocation) : Option String → History
  | none => History.empty
  | some path =>
    match i.tree.read i.cwd path with
    | .ok t => History.ofText t
    | .error _ => History.empty

/-- Keeps the history in its file, where that can be written. -/
def keepHistory (i : Invocation) (h : History) : Option String → FileTree
  | none => i.tree
  | some path =>
    match i.tree.write i.cwd path h.toText with
    | .ok tree => tree
    | .error _ => i.tree

end Invocation

namespace Setup

def eval (s : Setup) (i : Invocation) (source : Text) : Outcome :=
  let log := s.journal.lines ((ExecResult.expression (s.journal.engine.eval source)).records source)
  match s.journal.engine.eval source with
  | .ok v => ⟨outputLine s!"{v.toInt}", log, i.tree, none⟩
  | .error f => ⟨[], log, i.tree, some (.failed "evaluation failed" source f)⟩

def run (s : Setup) (i : Invocation) (source : Text) : Outcome :=
  let result := s.journal.engine.run source
  let log := s.journal.lines ((ExecResult.program result).records source)
  match result.failure?, result.env? with
  | some f, _ => ⟨[], log, i.tree, some (.failed "execution failed" source f)⟩
  | none, some env => ⟨if env.size = 0 then [] else outputLine (env.render "\n"), log, i.tree, none⟩
  | none, none => ⟨[], log, i.tree, none⟩

def tokenLine (pos : Position) (description : String) : Text :=
  outputLine s!"{pos.render}\t{description}"

def tokens (s : Setup) (i : Invocation) (source : Text) : Outcome :=
  let scan := Scan.ofText source
  let shown := scan.tokens.flatMap fun t => tokenLine t.pos t.lexeme.describe
  match scan.stop with
  | .fault e => ⟨shown, [], i.tree, some (.failed "scan failed" source (.rejected (.lex e)))⟩
  | .eof pos =>
    let record : Record := ⟨"scanned source", [("tokens", Record.number (scan.tokens.length + 1))]⟩
    ⟨shown ++ tokenLine pos (describeToken .eof "" 0), s.journal.lines [record], i.tree, none⟩

/-- The tree of a text of either kind. -/
def parseTree (e : Engine) (source : Text) : Except Rejection Tree :=
  match detectMode source with
  | .program => (e.parse source).map Program.toTree
  | .expression => (e.parseExpression source).map Expr.toTree

def ast (s : Setup) (i : Invocation) (raw : Bool) (source : Text) : Outcome :=
  match parseTree s.journal.engine source with
  | .error r => ⟨[], [], i.tree, some (.failed "parse failed" source (.rejected r))⟩
  | .ok tree => ⟨outputLine (if raw then tree.dump else tree.polish), [], i.tree, none⟩

def analyze (s : Setup) (i : Invocation) (path : String) (source : Text) : Outcome :=
  match s.journal.engine.parse source with
  | .error r => ⟨[], [], i.tree, some (.failed "analysis parse failed" source (.rejected r))⟩
  | .ok p =>
    match p.warnings with
    | [] => ⟨outputLine "No issues found", [], i.tree, none⟩
    | ws =>
      ⟨ws.flatMap fun w => outputLine s!"{path}:{w.render}", [], i.tree, some (.issues ws.length)⟩

def converse (s : Setup) (i : Invocation) : Outcome :=
  let path? := s.config.historyPath? i.home
  match Conversation.run s.journal s.config.prompt (Lines.split i.stdin.toBytes)
      (i.readHistory path?) with
  | (c, failure) =>
    ⟨c.out, c.err, i.keepHistory c.history path?, failure.map .conversation⟩

end Setup

namespace Job

/-- Carries out an action once everything is set up. -/
def perform (s : Setup) (i : Invocation) : Action → Outcome
  | .eval source => s.eval i (Text.ofString source)
  | .run path => i.withSource path (s.run i)
  | .tokens path => i.withSource path (s.tokens i)
  | .ast path raw => i.withSource path (s.ast i raw)
  | .format targets write check => i.format targets ⟨write, check⟩
  | .analyze path => i.withSource path (s.analyze i path)
  | .converse true => ⟨[], [], i.tree, some .noScreen⟩
  | .converse false => s.converse i
  | .explain => ⟨[], [], i.tree, none⟩

/-- Carries out a job. An explanation needs no setup. -/
def run (job : Job) (i : Invocation) : Outcome :=
  if job.action = .explain then ⟨[], [], i.tree, none⟩
  else
    match Setup.make job.flags i with
    | .error e => ⟨[], [], i.tree, some e⟩
    | .ok s =>
      let o := perform s i job.action
      { o with stderr := s.journal.lines [s.record (Setup.path job.flags i)] ++ o.stderr }

end Job

/-- Carries out a command line. -/
def runCommand (args : List String) (i : Invocation) : Outcome :=
  match Job.ofArguments args with
  | .error e => ⟨[], [], i.tree, some (.usage e)⟩
  | .ok job => job.run i

end BlockCalc
