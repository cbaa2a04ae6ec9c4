import BlockCalc.Proofs.EntryStates
import BlockCalc.Proofs.Faults

/-!
# BlockCalc.Proofs.ScreenTexts

The texts that a screen holds after any messages. Whatever comes into the field is cleaned first,
and lines and entries are made of what stood in the field, so a field takes all of them as they
are. The variables that a screen knows are those of a program that was accepted, so they are names.
One message keeps this (`Screen.Tidy.receive`), and so does every sequence of them.
-/

namespace BlockCalc

/-! ## The field -/

namespace Field

theorem showable_sanitize (t : Text) : ∀ c ∈ sanitize t, (Glyph.char c).Showable := by
  intro c hc
  obtain ⟨g, _, hg⟩ := List.mem_filterMap.1 hc
  dsimp only at hg
  split at hg
  · cases hg
    exact ⟨by decide, by decide, by decide⟩
  · split at hg
    · cases hg
    · rename_i hkept
      cases hg
      have hfffd : g.shown.toNat ≠ 0xFFFD := fun hcode =>
        hkept (.inr (.inr (Char.ext (UInt32.toNat_inj.1 hcode))))
      exact ⟨Nat.not_lt.1 fun hlow => hkept (.inl hlow), fun hhigh => hkept (.inr (.inl hhigh)),
        hfffd⟩

/-- A field whose value it would take as it is. -/
def Tidy (f : Field) : Prop := ∀ c ∈ f.value, (Glyph.char c).Showable

theorem value_moveTo (f : Field) (n : Nat) : (f.moveTo n).value = f.value := value_scroll _

theorem tidy_set (f : Field) (t : Text) : (f.set t).Tidy := by
  intro c hc
  rw [value_set] at hc
  exact showable_sanitize t c (List.mem_of_mem_take hc)

variable {f : Field}

theorem Tidy.moveToEnd (h : f.Tidy) : f.moveToEnd.Tidy := by
  intro c hc
  rw [Field.moveToEnd, value_moveTo] at hc
  exact h c hc

/-- What stands in a field after typing was there before, or is what the field takes of it. -/
theorem mem_value_insert {t : Text} {c : Char} (hc : c ∈ (f.insert t).value) :
    c ∈ f.value ∨ c ∈ sanitize t := by
  unfold insert at hc
  dsimp only at hc
  split at hc
  · rw [value_scroll] at hc
    exact .inl hc
  · have hmem : c ∈ f.value.take f.cursor ++
        (sanitize t).take (capacity - f.value.length) ++ f.value.drop f.cursor := by
      split at hc
      · rwa [value_scroll, value_scroll, Field.moveToEnd, value_moveTo] at hc
      · rwa [value_scroll, value_scroll] at hc
    rcases List.mem_append.1 hmem with hmem | hmem
    · rcases List.mem_append.1 hmem with hmem | hmem
      · exact .inl (List.mem_of_mem_take hmem)
      · exact .inr (List.mem_of_mem_take hmem)
    · exact .inl (List.mem_of_mem_drop hmem)

theorem Tidy.insert (h : f.Tidy) (t : Text) : (f.insert t).Tidy := by
  intro c hc
  rcases mem_value_insert hc with hc | hc
  · exact h c hc
  · exact showable_sanitize t c hc

/-- Editing puts nothing new in a field. -/
theorem mem_value_edit {e : Edit} {c : Char} (hc : c ∈ (f.edit e).value) : c ∈ f.value := by
  have hcut : ∀ {m n : Nat}, c ∈ f.value.take m ++ f.value.drop n → c ∈ f.value := by
    intro m n hmem
    rcases List.mem_append.1 hmem with hmem | hmem
    · exact List.mem_of_mem_take hmem
    · exact List.mem_of_mem_drop hmem
  cases e with
  | left | right =>
    rw [edit, value_scroll] at hc
    split at hc
    · rwa [value_moveTo] at hc
    · exact hc
  | home | toEnd =>
    rw [edit, value_scroll] at hc
    rwa [← value_moveTo f]
  | backspace =>
    rw [edit, value_scroll] at hc
    split at hc
    · rw [value_moveTo] at hc
      exact hcut hc
    · exact hc
  | delete =>
    rw [edit, value_scroll] at hc
    exact hcut hc
  | deleteBefore =>
    rw [edit, value_scroll, value_moveTo] at hc
    exact List.mem_of_mem_drop hc

theorem Tidy.edit (h : f.Tidy) (e : Edit) : (f.edit e).Tidy := fun c hc => h c (mem_value_edit hc)

end Field

/-! ## The names of a session -/

theorem Session.isName_evaluate {s : Session} (h : ∀ x ∈ s.names, IsName x) (entry : Text) :
    ∀ x ∈ (s.evaluate entry).2.names, IsName x := by
  have henv : (s.engine.exec entry).verdict.2 = (s.engine.exec entry).env? := rfl
  intro x hx
  rw [(s.evaluate_eq entry).2, henv] at hx
  cases hexec : (s.engine.exec entry).env? with
  | none =>
    rw [hexec] at hx
    exact h x hx
  | some env =>
    rw [hexec] at hx
    unfold Engine.exec at hexec
    cases hmode : detectMode entry with
    | expression =>
      rw [hmode] at hexec
      cases hexec
    | program =>
      rw [hmode] at hexec
      exact Engine.isName_of_run hexec x hx

/-! ## The screen -/

namespace Screen

/-- A field would take the value, the pending lines and the entries as they are, and the variables
are names. -/
structure Tidy (s : Screen) : Prop where
  field : s.field.Tidy
  pending : ∀ t ∈ s.pending, ∀ g ∈ t, g.Showable
  recallable : ∀ t ∈ s.recallable, ∀ g ∈ t, g.Showable
  names : ∀ x ∈ s.session.names, IsName x

variable {s : Screen}

theorem Tidy.value (h : s.Tidy) : ∀ g ∈ s.value, g.Showable := by
  intro g hg
  obtain ⟨c, hc, rfl⟩ := List.mem_map.1 hg
  exact h.field c hc

theorem Tidy.recallEntry (h : s.Tidy) (n : Nat) : (s.recallEntry n).Tidy :=
  { h with field := (Field.tidy_set _ _).moveToEnd }

theorem Tidy.recallPrevious (h : s.Tidy) : s.recallPrevious.Tidy := by
  unfold Screen.recallPrevious
  split
  · exact h
  · exact h.recallEntry _
  · exact h.recallEntry _

theorem Tidy.recallNext (h : s.Tidy) : s.recallNext.Tidy := by
  unfold Screen.recallNext
  split
  · exact h
  · split
    · exact h.recallEntry _
    · exact { h with field := (Field.tidy_set _ _).moveToEnd }

theorem Tidy.complete (h : s.Tidy) : s.complete.Tidy := by
  unfold Screen.complete
  split
  · exact h
  · split
    · exact h
    · split
      · exact h
      · exact { h with field := (Field.tidy_set _ _).moveToEnd }
      · exact { h with }

theorem Tidy.command (h : s.Tidy) (entry : Text) : (s.command entry).1.Tidy := by
  have hfield : (s.command entry).1.field = s.field := by
    unfold Screen.command
    dsimp only
    split <;> rfl
  obtain ⟨_, hsession, hpending, hrecallable⟩ := s.command_eq entry
  refine ⟨hfield ▸ h.field, hpending ▸ h.pending, hrecallable ▸ h.recallable, ?_⟩
  rw [hsession]
  split
  · exact nofun
  · exact h.names

theorem Tidy.evaluate (h : s.Tidy) {entry : Text} (hentry : ∀ g ∈ Text.oneLine entry, g.Showable) :
    (s.evaluate entry).Tidy where
  field := h.field
  pending := h.pending
  recallable := by
    intro t ht
    rcases List.mem_append.1 ht with ht | ht
    · exact h.recallable t ht
    · rw [List.mem_singleton.1 ht]
      exact hentry
  names := Session.isName_evaluate h.names entry

/-- Lines that a field takes as they are make an entry that it takes as it is, once on one line. -/
theorem showable_oneLine_join {ls : List Text} (h : ∀ t ∈ ls, ∀ g ∈ t, g.Showable) :
    ∀ g ∈ Text.oneLine (Text.join [Text.newline] ls), g.Showable := by
  intro g hg
  obtain ⟨g', hg', rfl⟩ := List.mem_map.1 hg
  split
  · exact ⟨by decide, by decide, by decide⟩
  · rename_i hne
    cases ls with
    | nil => cases hg'
    | cons t ls =>
      rw [Text.join_cons, List.mem_append, List.mem_flatMap] at hg'
      rcases hg' with hmem | ⟨u, hu, hmem⟩
      · exact h t List.mem_cons_self g' hmem
      · rcases List.mem_cons.1 hmem with rfl | hmem
        · exact absurd rfl hne
        · exact h u (List.mem_cons_of_mem t hu) g' hmem

theorem Tidy.submit (h : s.Tidy) : s.submit.1.Tidy := by
  have hline : ∀ g ∈ Text.trim s.value, g.Showable := fun g hg =>
    h.value g (Text.mem_of_mem_trim hg)
  unfold Screen.submit
  generalize Text.trim s.value = line at hline
  have hlines : ∀ t ∈ s.pending ++ [line], ∀ g ∈ t, g.Showable := by
    intro t ht
    rcases List.mem_append.1 ht with ht | ht
    · exact h.pending t ht
    · rw [List.mem_singleton.1 ht]
      exact hline
  have htaken : Tidy { s.setValue [] with recalled := none } :=
    { h with field := Field.tidy_set _ _ }
  dsimp only
  split
  · exact htaken
  · split
    · exact htaken.command line
    · split
      · exact { htaken with pending := hlines }
      · have hready : Tidy ({ s.setValue [] with recalled := none, pending := [] }.setPrompt
            s.prompt) := { htaken with pending := nofun }
        exact hready.evaluate (showable_oneLine_join hlines)

theorem Tidy.receive (h : s.Tidy) (m : Message) : (s.receive m).Tidy := by
  cases m with
  | size width height => exact { h with }
  | value t => exact { h with field := Field.tidy_set _ _ }
  | key k =>
    cases k with
    | enter => exact h.submit
    | up => exact h.recallPrevious
    | down => exact h.recallNext
    | tab => exact h.complete
    | edit e => exact { h with field := h.field.edit e }
    | typed g => exact { h with field := h.field.insert [g] }
    | _ => exact { h with }

theorem tidy_start (e : Engine) (prompt : Text) : (start e prompt).Tidy where
  field := fun _ hc => absurd hc List.not_mem_nil
  pending := fun _ ht => absurd ht List.not_mem_nil
  recallable := fun _ ht => absurd ht List.not_mem_nil
  names := fun _ hx => absurd hx List.not_mem_nil

theorem Tidy.receiveAll (ms : List Message) : ∀ {s : Screen}, s.Tidy → (s.receiveAll ms).Tidy := by
  induction ms with
  | nil => exact id
  | cons m ms ih => exact fun h => ih (h.receive m)

end Screen

end BlockCalc
