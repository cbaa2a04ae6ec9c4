import BlockCalc.Proofs.Conversations

/-!
# BlockCalc.Proofs.EntryStates

What holds of a screen after any messages. Most of the state is only shown or edited; what entries
depend on is the `EntryState`, and `EntryState.Step` says everything that a message can do to it
(`Screen.step_receive`). A line is added to the pending ones only if together they make an
unfinished program, and an entry becomes recallable only if it is none. So the invariant `Sound` is
kept by each step, and holds after every sequence of messages.
-/

namespace BlockCalc

/-! ## Messages -/

/-- What can happen to a screen: its window is resized, a key is pressed, or its field is given a
value. -/
inductive Message where
  | size (width height : Int)
  | key (k : Key)
  | value (t : Text)
deriving DecidableEq, Repr

namespace Screen

def receive (s : Screen) : Message → Screen
  | .size width height => s.resize width height
  | .key k => (s.press k).1
  | .value t => s.setValue t

/-- The screen after all of the messages, one after another. -/
def receiveAll (s : Screen) (ms : List Message) : Screen := ms.foldl receive s

end Screen

/-! ## The field keeps its prompt -/

namespace Field

theorem prompt_scroll (f : Field) : f.scroll.prompt = f.prompt := by
  unfold scroll
  split
  · rfl
  · dsimp only
    split
    · rfl
    · split <;> rfl

theorem prompt_moveTo (f : Field) (n : Nat) : (f.moveTo n).prompt = f.prompt := prompt_scroll _

theorem prompt_set (f : Field) (t : Text) : (f.set t).prompt = f.prompt := by
  unfold set replace
  dsimp only
  split
  · rw [prompt_scroll, moveToEnd, prompt_moveTo]
  · rw [prompt_scroll]

theorem prompt_insert (f : Field) (t : Text) : (f.insert t).prompt = f.prompt := by
  unfold insert
  dsimp only
  split
  · exact prompt_scroll f
  · split
    · rw [prompt_scroll, prompt_scroll, moveToEnd, prompt_moveTo]
    · rw [prompt_scroll, prompt_scroll]

theorem prompt_edit (f : Field) (e : Edit) : (f.edit e).prompt = f.prompt := by
  unfold edit
  split
  all_goals rw [prompt_scroll]
  · split
    · exact prompt_moveTo f _
    · rfl
  · split
    · exact prompt_moveTo f _
    · rfl
  · exact prompt_moveTo f _
  · exact prompt_moveTo f _
  · split
    · exact prompt_moveTo _ _
    · rfl
  · exact prompt_moveTo _ _

end Field

/-! ## What a message can do -/

/-- The part of a screen that entries depend on. -/
structure EntryState where
  engine : Engine
  /-- The prompt for the first line of an entry. -/
  prompt : Text
  /-- The prompt that is shown. -/
  shown : Text
  pending : List Text
  recallable : List Text
  recalled : Option Nat

def Screen.entryState (s : Screen) : EntryState :=
  ⟨s.session.engine, s.prompt, s.field.prompt, s.pending, s.recallable, s.recalled⟩

namespace EntryState

/-- The pending lines and `line` as one entry. -/
def entry (x : EntryState) (line : Text) : Text := Text.join [Text.newline] (x.pending ++ [line])

/-- What a message does to the state of entries. -/
inductive Step (x : EntryState) : EntryState → Prop where
  | same : Step x x
  | revisit {n : Nat} : n < x.recallable.length → Step x { x with recalled := some n }
  | leave : Step x { x with recalled := none }
  | collect {line : Text} : x.engine.isIncomplete (x.entry line) = true →
      Step x { x with
        recalled := none
        pending := x.pending ++ [line]
        shown := Text.ofString continuationPrompt }
  | evaluate {line : Text} : x.engine.isIncomplete (x.entry line) = false →
      (x.pending = [] → line ≠ [] ∧ line.head? ≠ some (.char ':')) →
      Step x { x with
        recalled := none
        pending := []
        shown := x.prompt
        recallable := x.recallable ++ [Text.oneLine (x.entry line)] }

/-- The entry that is recalled, if any, is there. -/
def InRange (x : EntryState) : Prop := ∀ i, x.recalled = some i → i < x.recallable.length

theorem inRange_of_none {x : EntryState} (h : x.recalled = none) : x.InRange := by
  intro i hi
  rw [h] at hi
  cases hi

end EntryState

theorem Session.engine_evaluate (s : Session) (entry : Text) :
    (s.evaluate entry).2.engine = s.engine := by
  rw [(s.evaluate_eq entry).2]

namespace Screen

open EntryState

theorem entryState_setValue (s : Screen) (t : Text) : (s.setValue t).entryState = s.entryState := by
  simp only [entryState, setValue, Field.prompt_set]

theorem entryState_recallEntry (s : Screen) (n : Nat) :
    (s.recallEntry n).entryState = { s.entryState with recalled := some n } := by
  simp only [entryState, recallEntry, Field.moveToEnd, Field.prompt_moveTo, Field.prompt_set]

theorem entryState_complete (s : Screen) : s.complete.entryState = s.entryState := by
  unfold complete
  split
  · rfl
  · split
    · rfl
    · split
      · rfl
      · simp only [entryState, Field.moveToEnd, Field.prompt_moveTo, Field.prompt_set]
      · rfl

theorem entryState_command (s : Screen) (entry : Text) :
    (s.command entry).1.entryState = s.entryState := by
  unfold command
  dsimp only
  split <;> rfl

theorem entryState_evaluate (s : Screen) (entry : Text) :
    (s.evaluate entry).entryState =
      { s.entryState with recallable := s.recallable ++ [Text.oneLine entry] } := by
  simp only [entryState, evaluate, Session.engine_evaluate]

variable {s : Screen}

theorem step_recallPrevious (h : s.entryState.InRange) :
    s.entryState.Step s.recallPrevious.entryState := by
  unfold recallPrevious
  split
  · exact .same
  · rename_i n hlength _
    rw [entryState_recallEntry]
    exact .revisit (by simp only [entryState, hlength]; omega)
  · rename_i i _ hrecalled
    have hi : i < s.recallable.length := h i hrecalled
    rw [entryState_recallEntry]
    exact .revisit (by simp only [entryState]; omega)

theorem step_recallNext (s : Screen) : s.entryState.Step s.recallNext.entryState := by
  unfold recallNext
  split
  · exact .same
  · split
    · rename_i hnext
      rw [entryState_recallEntry]
      exact .revisit hnext
    · have hleft : ∀ f : Field, f.prompt = s.field.prompt →
          entryState { s with recalled := none, field := f } =
            { s.entryState with recalled := none } := fun f hf => by simp only [entryState, hf]
      rw [hleft _ (by rw [Field.moveToEnd, Field.prompt_moveTo, Field.prompt_set])]
      exact .leave

theorem step_submit (s : Screen) : s.entryState.Step s.submit.1.entryState := by
  unfold submit
  generalize Text.trim s.value = line
  have htaken : entryState { s.setValue [] with recalled := none } =
      { s.entryState with recalled := none } := by
    simp only [entryState, setValue, Field.prompt_set]
  dsimp only
  split
  · rw [htaken]
    exact .leave
  · rename_i hblank
    split
    · rw [entryState_command, htaken]
      exact .leave
    · rename_i hcolon
      split
      · rename_i hinc
        exact .collect hinc
      · rename_i hinc
        rw [entryState_evaluate]
        refine Step.evaluate (eq_false_of_ne_true hinc) fun hnone => ?_
        have hpending : (s.setValue []).pending.isEmpty = true := List.isEmpty_iff.2 hnone
        exact ⟨fun hline => hblank ⟨hpending, List.isEmpty_iff.2 hline⟩,
          fun hhead => hcolon ⟨hpending, hhead⟩⟩

theorem step_receive (h : s.entryState.InRange) (m : Message) :
    s.entryState.Step (s.receive m).entryState := by
  cases m with
  | size width height => exact .same
  | value t =>
    rw [receive, entryState_setValue]
    exact .same
  | key k =>
    cases k with
    | up => exact step_recallPrevious h
    | down => exact s.step_recallNext
    | enter => exact s.step_submit
    | tab =>
      rw [receive, press, entryState_complete]
      exact .same
    | edit e =>
      have hsame : (s.receive (.key (.edit e))).entryState = s.entryState := by
        simp only [receive, press, withField, entryState, Field.prompt_edit]
      rw [hsame]
      exact .same
    | typed g =>
      have hsame : (s.receive (.key (.typed g))).entryState = s.entryState := by
        simp only [receive, press, withField, entryState, Field.prompt_insert]
      rw [hsame]
      exact .same
    | _ => exact .same

end Screen

/-! ## What every message keeps -/

/-- An entry that can be recalled: not empty, on one line, no command and no unfinished program. -/
structure Recallable (e : Engine) (t : Text) : Prop where
  ne_nil : t ≠ []
  oneLine : Text.newline ∉ t
  no_command : t.head? ≠ some (.char ':')
  finished : e.isIncomplete t = false

namespace EntryState

/-- What holds of entries to the engine `e` that are asked for with the prompt `first`. -/
structure Sound (e : Engine) (first : Text) (x : EntryState) : Prop where
  engine : x.engine = e
  prompt : x.prompt = first
  inRange : x.InRange
  /-- The pending lines, and the first of them up to any line, are an unfinished program. -/
  unfinished : ∀ ls, ls <+: x.pending → ls ≠ [] →
    e.isIncomplete (Text.join [Text.newline] ls) = true
  continuing : x.pending ≠ [] → x.shown = Text.ofString continuationPrompt
  idle : x.pending = [] → x.shown = first
  recallable : ∀ t ∈ x.recallable, Recallable e t

variable {e : Engine} {first : Text} {x y : EntryState}

/-- The first pending line begins with its `BEGIN`. -/
theorem Sound.head_pending (h : x.Sound e first) {t : Text} {ls : List Text}
    (hpending : x.pending = t :: ls) : t ≠ [] ∧ t.head? ≠ some (.char ':') := by
  have hinc := h.unfinished [t] (by rw [hpending]; exact List.prefix_append [t] ls)
    (List.cons_ne_nil t [])
  rw [Text.join_cons, List.flatMap_nil, List.append_nil] at hinc
  have hhead := trim_head_of_program (Engine.isIncomplete_iff_atEnd.1 hinc).1
  constructor
  · rintro rfl
    cases hhead
  · intro hcolon
    obtain ⟨rest, rfl⟩ := List.head?_eq_some_iff.1 hcolon
    rw [Text.head?_trim_cons (by decide)] at hhead
    cases hhead

/-- An entry that has begun with no command is none when it is evaluated. -/
theorem Sound.recallable_entry (h : x.Sound e first) {line : Text}
    (hinc : e.isIncomplete (x.entry line) = false)
    (hline : x.pending = [] → line ≠ [] ∧ line.head? ≠ some (.char ':')) :
    Recallable e (Text.oneLine (x.entry line)) := by
  obtain ⟨t, rest, hentry, hne, hcolon⟩ : ∃ t rest, x.entry line = t ++ rest ∧ t ≠ [] ∧
      t.head? ≠ some (.char ':') := by
    unfold entry
    cases hpending : x.pending with
    | nil => exact ⟨line, [], by rw [join_nil_append, List.append_nil], hline hpending⟩
    | cons t ls => exact ⟨t, _, Text.join_cons t (ls ++ [line]), h.head_pending hpending⟩
  obtain ⟨g, t, rfl⟩ := List.exists_cons_of_ne_nil hne
  refine ⟨?_, Text.newline_not_mem_oneLine _, ?_, ?_⟩
  · rw [hentry]
    exact List.cons_ne_nil _ _
  · rw [hentry]
    intro hhead
    have hg : (if g = Text.newline then Glyph.char ' ' else g) = .char ':' := Option.some.inj hhead
    split at hg
    · cases hg
    · exact hcolon (congrArg some hg)
  · rw [e.isIncomplete_congr (.oneLine _)]
    exact hinc

theorem Sound.step (h : x.Sound e first) (hstep : x.Step y) : y.Sound e first := by
  cases hstep with
  | same => exact h
  | revisit hn =>
    refine { h with inRange := ?_ }
    rintro i ⟨⟩
    exact hn
  | leave => exact { h with inRange := inRange_of_none rfl }
  | @collect line hinc =>
    refine { h with
      inRange := inRange_of_none rfl
      unfinished := ?_
      continuing := fun _ => rfl
      idle := fun hnone => absurd hnone (List.append_ne_nil_of_right_ne_nil _ (by simp)) }
    -- A beginning of the lines is all of them, or a beginning of those that were pending before.
    intro ls hls hne
    rcases List.prefix_concat_iff.1 hls with rfl | hls
    · rw [← h.engine]
      exact hinc
    · exact h.unfinished ls hls hne
  | @evaluate line hinc hline =>
    refine { h with
      inRange := inRange_of_none rfl
      unfinished := fun _ hls hne => absurd (List.prefix_nil.1 hls) hne
      continuing := fun hne => absurd rfl hne
      idle := fun _ => h.prompt
      recallable := ?_ }
    intro t ht
    rcases List.mem_append.1 ht with ht | ht
    · exact h.recallable t ht
    · rw [List.mem_singleton.1 ht]
      exact h.recallable_entry (h.engine ▸ hinc) hline

end EntryState

namespace Screen

/-- The prompt that a screen is started with; the empty one stands for the default. -/
def firstPrompt (prompt : Text) : Text :=
  if prompt.isEmpty then Text.ofString defaultPrompt else prompt

theorem sound_start (e : Engine) (prompt : Text) :
    (start e prompt).entryState.Sound e (firstPrompt prompt) where
  engine := rfl
  prompt := rfl
  inRange := EntryState.inRange_of_none rfl
  unfinished := fun _ hls hne => absurd (List.prefix_nil.1 hls) hne
  continuing := fun hne => absurd rfl hne
  idle := fun _ => rfl
  recallable := fun _ ht => absurd ht List.not_mem_nil

theorem sound_messages {e : Engine} {first : Text} (ms : List Message) : ∀ {s : Screen},
    s.entryState.Sound e first → (s.receiveAll ms).entryState.Sound e first := by
  induction ms with
  | nil => exact id
  | cons m ms ih => exact fun h => ih (h.step (step_receive h.inRange m))

/-- After any messages, a recalled entry is one of those that can be recalled. While lines are
pending, they and the first of them up to any line are an unfinished program, and the prompt asks
for more; otherwise it is the one that the screen was started with. Whatever can be recalled is on
one line, is neither empty nor a command, and is no unfinished program. -/
theorem sound_receiveAll (e : Engine) (prompt : Text) (ms : List Message) :
    let s := (start e prompt).receiveAll ms
    s.session.engine = e ∧
    (∀ i, s.recalled = some i → i < s.recallable.length) ∧
    (s.pending ≠ [] →
      (∀ ls, ls <+: s.pending → ls ≠ [] →
        e.isIncomplete (Text.join [Text.newline] ls) = true) ∧
      s.field.prompt = Text.ofString continuationPrompt) ∧
    (s.pending = [] → s.field.prompt = firstPrompt prompt) ∧
    ∀ t ∈ s.recallable, t ≠ [] ∧ Text.newline ∉ t ∧ t.head? ≠ some (.char ':') ∧
      e.isIncomplete t = false := by
  have h := sound_messages ms (sound_start e prompt)
  refine ⟨h.engine, h.inRange, fun hne => ⟨h.unfinished, h.continuing hne⟩, h.idle, ?_⟩
  intro t ht
  obtain ⟨hne, hline, hcommand, hfinished⟩ := h.recallable t ht
  exact ⟨hne, hline, hcommand, hfinished⟩

/-- An entry is recalled while a program is pending, and its first lines stay pending. -/
example :
    let s := (start ⟨8, .floor⟩ []).receiveAll [.value (Text.ofString "2 * 3"), .key .enter,
      .key (.typed (.char 'B')), .value (Text.ofString " BEGIN x := ("), .key .enter, .key .up]
    s.recalled = some 0 ∧ s.value = Text.ofString "2 * 3" ∧
      s.pending = [Text.ofString "BEGIN x := ("] ∧
      s.field.prompt = Text.ofString "...   " := by decide +kernel

end Screen

end BlockCalc
