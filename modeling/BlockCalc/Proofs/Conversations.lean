import BlockCalc.LineLoop
import BlockCalc.Screen.Model
import BlockCalc.Proofs.Answers

/-!
# BlockCalc.Proofs.Conversations

The line loop and the screen hold the same conversation. The loop keeps the lines of an unfinished
program as they were entered and trims the whole; the screen trims each line as it comes. The two
stay matched (`Matches`) over every line that a field takes as it is (`Matches.step`), so the same
entries are evaluated, with the same outcomes, and the loop prints what the screen keeps of them.
-/

namespace BlockCalc

/-! ## Lines that a field takes as they are -/

/-- A line with room in a field, without control characters and without U+FFFD. -/
structure Plain (t : Text) : Prop where
  short : t.length ≤ 500
  shown : ∀ g ∈ t, g.Showable

instance (t : Text) : Decidable (Plain t) :=
  decidable_of_iff (t.length ≤ 500 ∧ ∀ g ∈ t, g.Showable)
    ⟨fun ⟨hshort, hshown⟩ => ⟨hshort, hshown⟩, fun h => ⟨h.1, h.2⟩⟩

namespace Field

theorem value_scroll (f : Field) : f.scroll.value = f.value := by
  unfold scroll
  split
  · rfl
  · dsimp only
    split
    · rfl
    · split <;> rfl

theorem value_set (f : Field) (t : Text) : (f.set t).value = (sanitize t).take capacity := by
  unfold set replace
  dsimp only
  split
  · rw [value_scroll, moveToEnd, moveTo, value_scroll]
  · rw [value_scroll]

theorem map_char_sanitize_cons {g : Glyph} (hg : g.Showable) (t : Text) :
    (sanitize (g :: t)).map Glyph.char = g :: (sanitize t).map Glyph.char := by
  obtain ⟨hlow, hhigh, hfffd⟩ := hg
  cases g with
  | stray b => exact absurd rfl hfffd
  | char c =>
    have hcode : (Glyph.char c).code = c.toNat := rfl
    rw [hcode] at hlow hhigh hfffd
    have hblank : ¬ (c = '\t' ∨ c = '\n' ∨ c = '\r') := by
      rintro (rfl | rfl | rfl) <;> revert hlow <;> decide
    have hkept : ¬ (c.toNat < 0x20 ∨ (0x7F ≤ c.toNat ∧ c.toNat ≤ 0x9F) ∨ c = '�') := by
      rintro (hc | hc | rfl)
      · omega
      · exact hhigh hc
      · exact hfffd rfl
    rw [sanitize, List.filterMap_cons_some (by rw [Glyph.shown, if_neg hblank, if_neg hkept])]
    rfl

theorem map_char_sanitize {t : Text} (h : ∀ g ∈ t, g.Showable) :
    (sanitize t).map Glyph.char = t := by
  induction t with
  | nil => rfl
  | cons g t ih =>
    obtain ⟨hg, ht⟩ := List.forall_mem_cons.1 h
    rw [map_char_sanitize_cons hg, ih ht]

end Field

namespace Plain

variable {t : Text}

theorem newline_not_mem (h : Plain t) : Text.newline ∉ t := by
  intro hmem
  have := (h.shown _ hmem).1
  revert this
  decide

theorem value_setValue (h : Plain t) (s : Screen) : (s.setValue t).value = t := by
  have hlength : (Field.sanitize t).length ≤ Field.capacity := by
    rw [← List.length_map Glyph.char, Field.map_char_sanitize h.shown]
    exact h.short
  rw [Screen.value, Screen.setValue, Field.value_set, List.take_of_length_le hlength,
    Field.map_char_sanitize h.shown]

end Plain

/-! ## Commands -/

/-- The first word of an entry, by which commands are told apart. -/
def commandName? (entry : Text) : Option String := (Text.words entry).head?.map Text.toString

def quits (entry : Text) : Bool :=
  commandName? entry = some ":quit" ∨ commandName? entry = some ":q"

def resets (entry : Text) : Bool :=
  commandName? entry = some ":reset" ∨ commandName? entry = some ":r"

namespace LineLoop

theorem evaluated_not_mem_command (l : LineLoop) (entry x : Text) :
    LineEvent.evaluated x ∉ (l.command entry).1 := by
  unfold command
  split <;> simp [outLine, errLine]

theorem command_outcome (l : LineLoop) (entry : Text) :
    (l.command entry).2 = if quits entry then .finished
      else .again { l with session := if resets entry then l.session.reset else l.session } := by
  unfold command quits resets commandName?
  generalize (Text.words entry).head?.map Text.toString = name
  split <;> simp_all

end LineLoop

theorem commandName?_eq_some {entry : Text} {name : String} (hname : name ≠ "") :
    commandName? entry = some name ↔ Text.toString ((Text.words entry).headD []) = name := by
  unfold commandName?
  cases Text.words entry with
  | nil => exact ⟨nofun, fun h => absurd h.symm hname⟩
  | cons w ws => simp

theorem Screen.command_eq (s : Screen) (entry : Text) :
    (s.command entry).2 = (if quits entry then .quit else .nothing) ∧
    (s.command entry).1.session = (if resets entry then s.session.reset else s.session) ∧
    (s.command entry).1.pending = s.pending ∧ (s.command entry).1.recallable = s.recallable := by
  simp only [quits, resets, commandName?_eq_some (by decide : ":quit" ≠ ""),
    commandName?_eq_some (by decide : ":q" ≠ ""), commandName?_eq_some (by decide : ":reset" ≠ ""),
    commandName?_eq_some (by decide : ":r" ≠ "")]
  unfold command
  dsimp only
  split <;> simp_all [addExchange]

/-! ## What is seen of a conversation -/

/-- An entry that was evaluated, without the blanks at the ends of its lines, and the line that was
printed where it succeeded. -/
structure Answer where
  entry : Text
  output : Option Text
deriving DecidableEq, Repr

/-- What there is after a line: the bindings of the last program, whether more lines are waited
for, and what was answered to the line. -/
structure Report where
  lastEnv : Option Env
  waiting : Bool
  answers : List Answer
deriving DecidableEq

/-- The line that a successful reply is printed on. -/
def Reply.line? (r : Reply) : Option Text := r.success?.map (· ++ [Text.newline])

namespace LineLoop

/-- How a reply is written out. -/
def told (reply : Reply) : LineEvent :=
  if reply.isError then errLine (Text.display reply.text) else outLine (Text.display reply.text)

/-- The answers among the events of the loop: after an entry was evaluated comes what is printed, as
output or as an error. -/
def answers : List LineEvent → List Answer
  | .evaluated entry :: .out line :: rest => ⟨Text.tidy entry, some line⟩ :: answers rest
  | .evaluated entry :: .err _ :: rest => ⟨Text.tidy entry, none⟩ :: answers rest
  | _ :: rest => answers rest
  | [] => []

theorem answers_of_not_evaluated {events : List LineEvent}
    (h : ∀ entry, LineEvent.evaluated entry ∉ events) : answers events = [] := by
  induction events with
  | nil => rfl
  | cons event events ih =>
    have hrest : ∀ entry, LineEvent.evaluated entry ∉ events :=
      fun entry hmem => h entry (List.mem_cons_of_mem event hmem)
    cases event with
    | evaluated entry => exact absurd List.mem_cons_self (h entry)
    | _ => exact ih hrest

/-- What a successful answer says is printed as it is, on a line of its own. -/
theorem answers_evaluate (s : Session) (recorded entry : Text) :
    answers [.history recorded, .evaluated entry, told (s.evaluate entry).1] =
      [⟨Text.tidy entry, (s.evaluate entry).1.line?⟩] := by
  cases hreply : (s.evaluate entry).1 with
  | mk text isError =>
    cases isError with
    | true => rfl
    | false =>
      -- An error may have several lines, and these are made equally wide; a success is one line.
      have hsuccess : (s.evaluate entry).1.success? = some text := by rw [hreply]; rfl
      have hdisplay := Text.display_of_showable (Session.showable_success hsuccess)
      have htold : told ⟨text, false⟩ = .out (text ++ [Text.newline]) :=
        congrArg outLine hdisplay
      rw [htold]
      rfl

/-- What there is after a line, where the events were those of the line. -/
def report (l : LineLoop) (events : List LineEvent) : Report :=
  ⟨l.session.lastEnv, !l.pending.isEmpty, answers events⟩

/-- The reports on lines that are fed to the loop, up to the one that leaves it. -/
def reports : LineLoop → List Text → List Report
  | _, [] => []
  | l, t :: rest =>
    match l.step (.line t) with
    | (events, .again after) => after.report events :: after.reports rest
    | (_, _) => []

end LineLoop

def Exchange.answer (x : Exchange) : Answer :=
  ⟨x.input, (Reply.mk x.output x.isError).line?⟩

namespace Screen

/-- The exchanges of the entries that became recallable between two states. -/
def answers (s after : Screen) : List Answer :=
  ((after.exchanges.drop s.exchanges.length).take
    (after.recallable.length - s.recallable.length)).map Exchange.answer

def report (s after : Screen) : Report :=
  ⟨after.session.lastEnv, !after.pending.isEmpty, s.answers after⟩

/-- The reports on lines that are put in the field and entered, up to the one that leaves. -/
def reports : Screen → List Text → List Report
  | _, [] => []
  | s, t :: rest =>
    match (s.setValue t).press .enter with
    | (_, .quit) => []
    | (after, _) => s.report after :: after.reports rest

/-- The screen once the line `t` has been taken from its field. -/
def taken (s : Screen) (t : Text) : Screen :=
  { (s.setValue t).setValue [] with recalled := none }

theorem enter_eq {t : Text} (ht : Plain t) (s : Screen) :
    (s.setValue t).press .enter =
      let lines := s.pending ++ [Text.trim t]
      let entry := Text.join [Text.newline] lines
      if s.pending.isEmpty ∧ (Text.trim t).isEmpty then (s.taken t, .nothing)
      else if s.pending.isEmpty ∧ (Text.trim t).head? = some (.char ':') then
        (s.taken t).command (Text.trim t)
      else if s.session.engine.isIncomplete entry then
        ({ s.taken t with pending := lines }.setPrompt (Text.ofString continuationPrompt),
          .nothing)
      else ((({ s.taken t with pending := [] }.setPrompt s.prompt).evaluate entry), .nothing) := by
  unfold press submit
  rw [ht.value_setValue]
  rfl

theorem answers_evaluate {s s₀ : Screen} (hexchanges : s₀.exchanges = s.exchanges)
    (hrecallable : s₀.recallable = s.recallable) (entry : Text) :
    s.answers (s₀.evaluate entry) =
      [⟨Text.oneLine entry, (s₀.session.evaluate entry).1.line?⟩] := by
  simp [answers, evaluate, hexchanges, hrecallable, Exchange.answer]

theorem answers_of_recallable {s after : Screen} (h : after.recallable = s.recallable) :
    s.answers after = [] := by
  simp [answers, h]

end Screen

/-! ## The two conversations side by side -/

/-- The lines `ls` of an unfinished program are pending in both conversations. -/
structure Matches (l : LineLoop) (s : Screen) (ls : List Text) : Prop where
  session : l.session = s.session
  loop : l.pending = Text.join [Text.newline] ls
  screen : s.pending = ls.map Text.trim
  lines : ∀ t ∈ ls, Text.newline ∉ t
  incomplete : ls ≠ [] → s.session.engine.isIncomplete (Text.join [Text.newline] ls) = true
  first : ∀ t ∈ ls.head?, Text.trim t ≠ []

theorem trim_head_of_program {t : Text} (h : detectMode t = .program) :
    (Text.trim t).head? = some (.char 'B') := by
  obtain ⟨p, ts, hts⟩ := detectMode_eq_program.1 h
  obtain ⟨w, rest, hw, ht⟩ : ∃ w rest, Blanks w ∧ t = w ++ (.char 'B' :: rest) := by
    cases hstep : (Cursor.ofText t).step with
    | stop e =>
      rw [Scan.ofText, Cursor.scan_stop hstep] at hts
      cases hts
    | token u after =>
      rw [Scan.ofText, Cursor.scan_token hstep] at hts
      obtain ⟨rfl, _⟩ := List.cons.inj hts
      obtain ⟨w, hw, hrest, _⟩ := Cursor.step_token_iff.1 hstep
      have hword : Lexeme.beginWord.glyphs = .char 'B' :: Text.ofString "EGIN" := by decide
      rw [hword] at hrest
      exact ⟨w, Text.ofString "EGIN" ++ after.rest, hw, hrest⟩
  obtain ⟨w₁, w₂, hw₁, hw₂, hsplit, hhead, _⟩ := Text.trim_split t
  have hleft : t.dropWhile Glyph.isBlank = .char 'B' :: rest := by
    rw [ht]
    exact Text.dropWhile_run hw fun g hg => by cases hg; decide
  cases hcore : Text.trim t with
  | nil =>
    have hblank := Text.blanks_of_trim_eq_nil hcore (.char 'B') (by rw [ht]; simp)
    exact absurd hblank (by decide)
  | cons g core =>
    rw [hcore] at hsplit hhead
    rw [hsplit, Text.dropWhile_run hw₁ (hhead.append_of_ne_nil (List.cons_ne_nil g core) w₂)]
      at hleft
    cases hleft
    rfl

theorem detectMode_append {t : Text} (h : detectMode t = .program) (more : Text) :
    detectMode (t ++ Text.newline :: more) = .program := by
  unfold detectMode at h ⊢
  cases hstep : (Cursor.ofText t).step with
  | stop e => rw [hstep] at h; cases h
  | token u after =>
    rw [hstep] at h
    have happend := Cursor.step_append_token isBlank_newline more hstep
    rw [Cursor.ofText] at happend ⊢
    rw [happend]
    obtain ⟨x, p⟩ := u
    cases x with
    | beginWord => rfl
    | _ => cases h

theorem join_nil_append (t : Text) : Text.join [Text.newline] ([] ++ [t]) = t := by
  simp [Text.join_cons]

namespace Matches

variable {l : LineLoop} {s : Screen} {ls : List Text} {t : Text}

theorem of_no_pending (hsession : l.session = s.session) (hl : l.pending = [])
    (hs : s.pending = []) : Matches l s [] where
  session := hsession
  loop := hl
  screen := hs
  lines := nofun
  incomplete := fun hne => absurd rfl hne
  first := nofun

theorem isEmpty_loop (h : Matches l s ls) : l.pending.isEmpty = ls.isEmpty := by
  rw [h.loop]
  cases ls with
  | nil => rfl
  | cons f more =>
    have hne : f ≠ [] := by
      rintro rfl
      exact h.first [] rfl rfl
    obtain ⟨g, rest, rfl⟩ := List.exists_cons_of_ne_nil hne
    rw [Text.join_cons]
    rfl

theorem isEmpty_screen (h : Matches l s ls) : s.pending.isEmpty = ls.isEmpty := by
  rw [h.screen, List.isEmpty_map]

theorem newline_not_mem (h : Matches l s ls) (ht : Plain t) :
    ∀ u ∈ ls ++ [t], Text.newline ∉ u := by
  intro u hu
  rcases List.mem_append.1 hu with hu | hu
  · exact h.lines u hu
  · rw [List.mem_singleton.1 hu]
    exact ht.newline_not_mem

theorem source (h : Matches l s ls) :
    (if l.pending.isEmpty then t else l.pending ++ [Text.newline] ++ t) =
      Text.join [Text.newline] (ls ++ [t]) := by
  rw [h.isEmpty_loop, h.loop]
  cases ls with
  | nil => simp [Text.join_cons]
  | cons f more =>
    rw [Text.join_append (List.cons_ne_nil f more)]
    simp

theorem step_line (h : Matches l s ls) (t : Text) :
    l.step (.line t) =
      let source := Text.join [Text.newline] (ls ++ [t])
      if s.session.engine.isIncomplete source then ([], .again { l with pending := source })
      else l.submit source := by
  unfold LineLoop.step
  simp only [h.source, h.session]

theorem press_enter (h : Matches l s ls) (ht : Plain t) :
    (s.setValue t).press .enter =
      let entry := Text.join [Text.newline] ((ls ++ [t]).map Text.trim)
      if ls = [] ∧ Text.trim t = [] then (s.taken t, .nothing)
      else if ls = [] ∧ (Text.trim t).head? = some (.char ':') then
        (s.taken t).command (Text.trim t)
      else if s.session.engine.isIncomplete entry then
        ({ s.taken t with pending := (ls ++ [t]).map Text.trim }.setPrompt
          (Text.ofString continuationPrompt), .nothing)
      else ((({ s.taken t with pending := [] }.setPrompt s.prompt).evaluate entry), .nothing) := by
  rw [Screen.enter_eq ht, h.screen]
  simp only [List.isEmpty_map, List.isEmpty_iff, List.map_append, List.map_cons, List.map_nil]

theorem report_eq (h : Matches l s ls) {s₀ : Screen} {events : List LineEvent}
    (hanswers : LineLoop.answers events = s₀.answers s) : l.report events = s₀.report s := by
  rw [LineLoop.report, Screen.report, hanswers, h.session, h.isEmpty_loop, h.isEmpty_screen]

/-- Both conversations go on after the line, matched, and are seen to have done the same. -/
def GoOn (l : LineLoop) (s : Screen) (t : Text) : Prop :=
  ∃ events l' s' ls', l.step (.line t) = (events, .again l') ∧
    (s.setValue t).press .enter = (s', .nothing) ∧ Matches l' s' ls' ∧
      l'.report events = s.report s'

theorem goOn_incomplete (h : Matches l s ls) (ht : Plain t)
    (hinc : s.session.engine.isIncomplete (Text.join [Text.newline] (ls ++ [t])) = true) :
    GoOn l s t := by
  have hinc' := hinc
  rw [← s.session.engine.isIncomplete_congr (Alike.join_trim _)] at hinc'
  -- A first line that makes an unfinished program is neither blank nor a command.
  have hhead : ls = [] → (Text.trim t).head? = some (.char 'B') := by
    rintro rfl
    rw [join_nil_append] at hinc
    exact trim_head_of_program (Engine.isIncomplete_iff_atEnd.1 hinc).1
  have hblank : ¬ (ls = [] ∧ Text.trim t = []) := by
    rintro ⟨hls, hnil⟩
    have := hhead hls
    rw [hnil] at this
    cases this
  have hcommand : ¬ (ls = [] ∧ (Text.trim t).head? = some (.char ':')) := by
    rintro ⟨hls, hcolon⟩
    exact absurd (hcolon.symm.trans (hhead hls)) (by decide)
  have hstep := h.step_line t
  have hpress := h.press_enter ht
  simp only [hinc, if_true] at hstep
  simp only [if_neg hblank, if_neg hcommand, hinc', if_true] at hpress
  have hmatches : Matches { l with pending := Text.join [Text.newline] (ls ++ [t]) }
      ({ s.taken t with pending := (ls ++ [t]).map Text.trim }.setPrompt
        (Text.ofString continuationPrompt))
      (ls ++ [t]) :=
    { session := h.session
      loop := rfl
      screen := rfl
      lines := h.newline_not_mem ht
      incomplete := fun _ => hinc
      first := by
        cases ls with
        | nil =>
          rintro u ⟨⟩
          exact fun hnil => hblank ⟨rfl, hnil⟩
        | cons f more => exact h.first }
  exact ⟨_, _, _, _, hstep, hpress, hmatches,
    hmatches.report_eq (Screen.answers_of_recallable rfl).symm⟩

theorem goOn_blank (h : Matches l s []) (ht : Plain t) (hblank : Text.trim t = [])
    (hinc : s.session.engine.isIncomplete t = false) : GoOn l s t := by
  have hstep := h.step_line t
  have hpress := h.press_enter ht
  simp only [join_nil_append, hinc, Bool.false_eq_true, if_false, LineLoop.submit, hblank,
    List.isEmpty_nil, if_true] at hstep
  simp only [hblank, and_self, if_true] at hpress
  have hmatches : Matches { l with pending := [] } (s.taken t) [] :=
    of_no_pending h.session rfl h.screen
  have hanswers : s.answers (s.taken t) = [] := Screen.answers_of_recallable rfl
  exact ⟨_, _, _, _, hstep, hpress, hmatches, hmatches.report_eq hanswers.symm⟩

theorem command_steps (h : Matches l s []) (ht : Plain t)
    (hcolon : (Text.trim t).head? = some (.char ':'))
    (hinc : s.session.engine.isIncomplete t = false) :
    l.step (.line t) =
      (.history (Text.oneLine (Text.trim t)) ::
          (LineLoop.command { l with pending := [] } (Text.trim t)).1,
        (LineLoop.command { l with pending := [] } (Text.trim t)).2) ∧
    (s.setValue t).press .enter = (s.taken t).command (Text.trim t) := by
  have hne : Text.trim t ≠ [] := by
    intro hnil
    rw [hnil] at hcolon
    cases hcolon
  have hempty : (Text.trim t).isEmpty = false := by simpa using hne
  have hstep := h.step_line t
  have hpress := h.press_enter ht
  simp only [join_nil_append, hinc, Bool.false_eq_true, if_false, LineLoop.submit, hempty,
    hcolon, if_true] at hstep
  simp only [hne, and_false, if_false, hcolon, and_self, if_true] at hpress
  exact ⟨hstep, hpress⟩

theorem goOn_command (h : Matches l s []) (ht : Plain t)
    (hcolon : (Text.trim t).head? = some (.char ':'))
    (hinc : s.session.engine.isIncomplete t = false) (hstay : quits (Text.trim t) = false) :
    GoOn l s t := by
  obtain ⟨hstep, hpress⟩ := h.command_steps ht hcolon hinc
  obtain ⟨hrequest, hsession, hpending, hrecallable⟩ :=
    Screen.command_eq (s.taken t) (Text.trim t)
  rw [LineLoop.command_outcome, hstay] at hstep
  rw [hstay] at hrequest
  refine ⟨_, _, _, [], hstep, hpress.trans (Prod.ext rfl hrequest), ?_⟩
  have hmatches : Matches
      { l with
        pending := []
        session := if resets (Text.trim t) then l.session.reset else l.session }
      ((s.taken t).command (Text.trim t)).1 [] :=
    of_no_pending (by rw [hsession, h.session]; rfl) rfl (hpending.trans h.screen)
  refine ⟨hmatches, hmatches.report_eq ?_⟩
  have hanswers : s.answers ((s.taken t).command (Text.trim t)).1 = [] :=
    Screen.answers_of_recallable hrecallable
  rw [hanswers]
  refine LineLoop.answers_of_not_evaluated fun entry hmem => ?_
  rcases List.mem_cons.1 hmem with hentry | hentry
  · cases hentry
  · exact LineLoop.evaluated_not_mem_command _ _ entry hentry

theorem tidy_source (h : Matches l s ls) (ht : Plain t) (hlast : Text.trim t ≠ []) :
    Text.tidy (Text.trim (Text.join [Text.newline] (ls ++ [t]))) =
      Text.oneLine (Text.join [Text.newline] ((ls ++ [t]).map Text.trim)) := by
  unfold Text.tidy
  cases ls with
  | nil =>
    have hline : Text.newline ∉ Text.trim t :=
      fun hmem => ht.newline_not_mem (Text.mem_of_mem_trim hmem)
    rw [join_nil_append, Text.lines_of_no_newline hline, List.map_cons, List.map_nil,
      Text.trim_trim]
    rfl
  | cons f more =>
    rw [List.cons_append,
      Text.map_trim_lines_trim (h.first f rfl) hlast (h.newline_not_mem ht)]

theorem goOn_evaluate (h : Matches l s ls) (ht : Plain t)
    (hinc : s.session.engine.isIncomplete (Text.join [Text.newline] (ls ++ [t])) = false)
    (hlast : Text.trim t ≠ [])
    (hne : Text.trim (Text.join [Text.newline] (ls ++ [t])) ≠ [])
    (hcolon : (Text.trim (Text.join [Text.newline] (ls ++ [t]))).head? ≠ some (.char ':')) :
    GoOn l s t := by
  have hinc' := hinc
  rw [← s.session.engine.isIncomplete_congr (Alike.join_trim _)] at hinc'
  have hblank : ¬ (ls = [] ∧ Text.trim t = []) := fun hand => hlast hand.2
  have hcommand : ¬ (ls = [] ∧ (Text.trim t).head? = some (.char ':')) := by
    rintro ⟨rfl, hhead⟩
    rw [join_nil_append] at hcolon
    exact hcolon hhead
  have hempty : (Text.trim (Text.join [Text.newline] (ls ++ [t]))).isEmpty = false := by
    simpa using hne
  have hstep := h.step_line t
  have hpress := h.press_enter ht
  simp only [hinc, Bool.false_eq_true, if_false, LineLoop.submit, hempty, hcolon] at hstep
  simp only [if_neg hblank, if_neg hcommand, hinc', Bool.false_eq_true, if_false] at hpress
  -- The loop trims the entry as a whole and the screen trims each line: both are read alike.
  have halike : Alike (Text.trim (Text.join [Text.newline] (ls ++ [t])))
      (Text.join [Text.newline] ((ls ++ [t]).map Text.trim)) :=
    (Alike.trim _).trans (Alike.join_trim _).symm
  obtain ⟨houtput, hsession⟩ := s.session.evaluate_congr halike
  have htidy := h.tidy_source ht hlast
  generalize Text.trim (Text.join [Text.newline] (ls ++ [t])) = entry at *
  generalize Text.join [Text.newline] ((ls ++ [t]).map Text.trim) = entry' at *
  have hmatches : Matches
      { l with pending := [], session := (l.session.evaluate entry).2 }
      (({ s.taken t with pending := [] }.setPrompt s.prompt).evaluate entry') [] :=
    of_no_pending (by rw [h.session]; exact hsession) rfl rfl
  refine ⟨_, _, _, [], hstep, hpress, hmatches, hmatches.report_eq ?_⟩
  have hanswers : s.answers
      (({ s.taken t with pending := [] }.setPrompt s.prompt).evaluate entry') =
        [⟨Text.oneLine entry', (s.session.evaluate entry').1.line?⟩] :=
    Screen.answers_evaluate rfl rfl entry'
  have hline : (s.session.evaluate entry).1.line? = (s.session.evaluate entry').1.line? :=
    congrArg (Option.map (· ++ [Text.newline])) houtput
  rw [hanswers, ← hline, ← htidy, ← h.session]
  exact LineLoop.answers_evaluate l.session _ entry

/-- One line: both conversations leave by it, or both go on. -/
theorem step (h : Matches l s ls) (ht : Plain t) :
    (quits (Text.trim t) = true ∧ (∃ events, l.step (.line t) = (events, .finished)) ∧
      ∃ s', (s.setValue t).press .enter = (s', .quit)) ∨ GoOn l s t := by
  cases hinc : s.session.engine.isIncomplete (Text.join [Text.newline] (ls ++ [t])) with
  | true => exact .inr (h.goOn_incomplete ht hinc)
  | false =>
    cases ls with
    | nil =>
      have hinc' := hinc
      rw [join_nil_append] at hinc'
      by_cases hblank : Text.trim t = []
      · exact .inr (h.goOn_blank ht hblank hinc')
      by_cases hcolon : (Text.trim t).head? = some (.char ':')
      · cases hquit : quits (Text.trim t) with
        | false => exact .inr (h.goOn_command ht hcolon hinc' hquit)
        | true =>
          obtain ⟨hstep, hpress⟩ := h.command_steps ht hcolon hinc'
          rw [LineLoop.command_outcome, hquit] at hstep
          have hrequest := (Screen.command_eq (s.taken t) (Text.trim t)).1
          rw [hquit] at hrequest
          exact .inl ⟨rfl, ⟨_, hstep⟩, _, hpress.trans (Prod.ext rfl hrequest)⟩
      · exact .inr (h.goOn_evaluate ht hinc hblank (by rwa [join_nil_append])
          (by rwa [join_nil_append]))
    | cons f more =>
      -- A program is pending, so the entry begins with its `BEGIN` and is no command.
      have hpending := h.incomplete (List.cons_ne_nil f more)
      have hhead := trim_head_of_program
        (detectMode_append (Engine.isIncomplete_iff_atEnd.1 hpending).1 t)
      have hsource := Text.join_append (List.cons_ne_nil f more) t
      rw [← hsource] at hhead
      have hlast : Text.trim t ≠ [] := by
        intro hnil
        have hblanks : Blanks (Text.newline :: t) :=
          List.forall_mem_cons.2 ⟨isBlank_newline, Text.blanks_of_trim_eq_nil hnil⟩
        have hsame := s.session.engine.isIncomplete_congr
          (Alike.append_blanks hblanks (Text.join [Text.newline] (f :: more)))
        rw [← hsource, hinc, hpending] at hsame
        cases hsame
      refine .inr (h.goOn_evaluate ht hinc hlast (fun hnil => ?_) (fun hcolon => ?_))
      · rw [hnil] at hhead
        cases hhead
      · exact absurd (hcolon.symm.trans hhead) (by decide)

end Matches

theorem Matches.reports_eq {lines : List Text} (hlines : ∀ t ∈ lines, Plain t) :
    ∀ {l : LineLoop} {s : Screen} {ls : List Text}, Matches l s ls →
      l.reports lines = s.reports lines ∧
      ((l.reports lines).length = lines.length ∨
        ∃ t, lines[(l.reports lines).length]? = some t ∧ quits (Text.trim t) = true) := by
  -- The states and the pending lines change with every line; what carries over is `Matches`.
  induction lines with
  | nil =>
    intro l s ls _
    exact ⟨rfl, .inl rfl⟩
  | cons t lines ih =>
    intro l s ls h
    obtain ⟨ht, hlines⟩ := List.forall_mem_cons.1 hlines
    rcases h.step ht with ⟨hquit, ⟨events, hstep⟩, s', hpress⟩ | hgoOn
    · simp only [LineLoop.reports, Screen.reports, hstep, hpress]
      exact ⟨trivial, .inr ⟨t, rfl, hquit⟩⟩
    · obtain ⟨events, l', s', ls', hstep, hpress, hmatches, hreport⟩ := hgoOn
      obtain ⟨hrest, hend⟩ := ih hlines hmatches
      simp only [LineLoop.reports, Screen.reports, hstep, hpress, hreport, ← hrest,
        List.length_cons, List.getElem?_cons_succ]
      exact ⟨trivial, hend.imp_left fun hlength => by rw [hlength]⟩

/-- The line loop and the screen, given the same lines, are seen to do the same. They leave only by
a command to quit. -/
theorem conversations_agree (e : Engine) (prompt prompt' : Text) (lines : List Text)
    (hlines : ∀ t ∈ lines, Plain t) :
    let seen := (LineLoop.start e prompt).reports lines
    seen = (Screen.start e prompt').reports lines ∧
      (seen.length = lines.length ∨
        ∃ t, lines[seen.length]? = some t ∧ quits (Text.trim t) = true) :=
  (Matches.of_no_pending rfl rfl rfl).reports_eq hlines

/-- The screen answers like the loop, which keeps the blanks of an unfinished program: to a program
over three lines, to a fault, and no more after the command to quit. -/
theorem conversations_agree_block :
    let lines := ["BEGIN ", "  x := 7", "END. ", "1 / 0", ":q", "2"].map Text.ofString
    (∀ t ∈ lines, Plain t) ∧ (Screen.start ⟨256, .truncate⟩ []).reports lines =
      [⟨none, true, []⟩, ⟨none, true, []⟩,
        ⟨some (Env.empty.set "x" 7), false,
          [⟨Text.ofString "BEGIN x := 7 END.", some (Text.ofString "x = 7\n")⟩]⟩,
        ⟨some (Env.empty.set "x" 7), false, [⟨Text.ofString "1 / 0", none⟩]⟩] := by
  intro lines
  have hplain : ∀ t ∈ lines, Plain t := by decide +kernel
  refine ⟨hplain, ?_⟩
  rw [← (conversations_agree ⟨256, .truncate⟩ [] [] lines hplain).1]
  decide +kernel

end BlockCalc
