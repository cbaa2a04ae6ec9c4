import BlockCalc.Screen.Model

/-!
# BlockCalc.Screen.View

What the full-screen conversation shows: a header, the latest exchanges that have room, the panels
that are open, the pending lines, the field and a line of keys.
-/

namespace BlockCalc
namespace Screen

def helpLines : List (String × String) := [
  ("↑/↓", "Navigate entry history"),
  ("Tab", "Complete BEGIN, END or a variable"),
  ("Enter", "Evaluate; an unfinished program continues"),
  (":help", "Toggle this help"),
  (":vars", "Toggle variables of the last program"),
  (":clear", "Clear history"),
  (":reset", "Forget the last program's variables"),
  (":quit", "Exit REPL")]

/-- A word with spaces after it, up to eight characters. -/
def padWord (w : String) : Text := Text.ofString w ++ Text.spaces (8 - w.length)

def helpPanel : Text :=
  Text.panel (Text.join [Text.newline]
    (Text.ofString "Help" :: helpLines.map fun (key, meaning) =>
      Text.spaces 2 ++ padWord key ++ Text.spaces 2 ++ Text.ofString meaning))

/-- The variables of an environment, where there are any. -/
def varsPanel (env : Option Env) : Text :=
  match env with
  | none => Text.panel (Text.ofString "No variables defined")
  | some env =>
    if env.size = 0 then Text.panel (Text.ofString "No variables defined")
    else
      Text.panel (Text.join [Text.newline]
        (Text.ofString "Variables" :: env.bindings.map fun b =>
          Text.ofString s!"  {b.1} = {b.2.toInt}"))

def exchangeText (e : Exchange) : Text :=
  (if e.input.isEmpty then [] else Text.ofString "  › " ++ e.input ++ [Text.newline]) ++
    Text.spaces 2 ++
    Text.display (Text.ofString (if e.isError then "✗ " else "→ ") ++ e.output) ++
    [Text.newline, Text.newline]

/-- How many exchanges have room beside the rest of the screen; always one. -/
def exchangeRoom (s : Screen) : Nat :=
  let reserved : Int :=
    8 + (if s.showHelp then 10 else 0) + (if s.showVars then s.session.names.length + 3 else 0)
  (max (s.height - reserved) 1).toNat

def footer : String := "ctrl+k help  ctrl+v vars  ctrl+l clear  ctrl+c quit"

def view (s : Screen) : Text :=
  if !s.sized then Text.ofString "Loading..."
  else if s.quitting then Text.display (Text.ofString "Goodbye!\n")
  else
    let rule := List.replicate (min (s.width - 2) 60).toNat (Glyph.char '─')
    let shown := s.exchanges.drop (s.exchanges.length - s.exchangeRoom)
    Text.ofString " pascalcalc  BEGIN ... END.\n" ++
    rule ++ [Text.newline, Text.newline] ++
    shown.flatMap exchangeText ++
    (if s.showVars then varsPanel s.session.lastEnv ++ [Text.newline] else []) ++
    (if s.showHelp then helpPanel ++ [Text.newline] else []) ++
    s.pending.flatMap (fun l => Text.ofString continuationPrompt ++ l ++ [Text.newline]) ++
    s.field.view ++ [Text.newline, Text.newline] ++
    Text.ofString footer

end Screen
end BlockCalc
