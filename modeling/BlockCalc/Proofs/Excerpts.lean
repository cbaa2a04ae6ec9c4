import BlockCalc.Proofs.FaultPlaces
import BlockCalc.Proofs.Trimming

/-!
# BlockCalc.Proofs.Excerpts

The excerpt of the source that goes with the message of a failure. Lines and columns are counted
twice: by scanning, glyph by glyph, and by the excerpt, which splits the source at its newlines and
leaves out carriage returns at the end of a line. They agree (`Stands.line`): at the place that
scanning has come to, the line of that number goes on with the text that is left. So the caret
stands under what the failure is about.
-/

namespace BlockCalc

/-! ## The line of a place -/

theorem Text.forall_ne_newline {t : Text} (h : Text.newline ∉ t) :
    ∀ g ∈ t, (g != Text.newline) = true :=
  fun _ hg => bne_iff_ne.2 fun heq => h (heq ▸ hg)

theorem Text.head?_lines (t : Text) :
    (Text.lines t).head? = some (t.takeWhile (· != Text.newline)) := by
  induction t using Text.lines_induction with
  | @last t h =>
    have htake := Text.takeWhile_run (Text.forall_ne_newline h) (Text.stopsAt_nil _)
    rw [List.append_nil] at htake
    rw [Text.lines_of_no_newline h, htake]
    rfl
  | line h _ =>
    have hstop : ∀ rest, Text.StopsAt (· != Text.newline) (Text.newline :: rest) := by
      intro rest g hg
      cases hg
      exact bne_self_eq_false _
    rw [Text.lines_append h, Text.takeWhile_run (Text.forall_ne_newline h) (hstop _)]
    rfl

/-- What begins one line lower ends one line lower. -/
theorem Position.past_lower (u : Text) : ∀ p : Position,
    (⟨p.line + 1, p.column⟩ : Position).past u = ⟨(p.past u).line + 1, (p.past u).column⟩ := by
  induction u with
  | nil => exact fun p => rfl
  | cons g u ih =>
    intro p
    have hafter : (⟨p.line + 1, p.column⟩ : Position).after g =
        ⟨(p.after g).line + 1, (p.after g).column⟩ := by
      unfold after
      split <;> rfl
    exact (congrArg (past · u) hafter).trans (ih (p.after g))

/-- The line of a place goes on there with what stands there. -/
theorem Stands.line {t v : Text} {pos : Position} (h : Stands t pos v) :
    ∃ before : Text, 1 ≤ pos.line ∧ pos.column = before.length + 1 ∧
      (Text.lines t)[(pos.line - 1).toNat]? =
        some (before ++ v.takeWhile (· != Text.newline)) := by
  obtain ⟨u, rfl, rfl⟩ := h
  induction u using Text.lines_induction with
  | @last u hu =>
    rw [Position.past_of_no_newline _ hu]
    refine ⟨u, Int.le_refl _, by simp only [Position.start]; omega, ?_⟩
    rw [← List.takeWhile_append_of_pos (Text.forall_ne_newline hu), ← Text.head?_lines,
      List.head?_eq_getElem?]
    rfl
  | @line first u hfirst ih =>
    obtain ⟨before, hline, hcolumn, hget⟩ := ih
    have hpast : Position.start.past (first ++ Text.newline :: u) =
        ⟨(Position.start.past u).line + 1, (Position.start.past u).column⟩ := by
      rw [Position.past_append, Position.past_of_no_newline _ hfirst]
      exact Position.past_lower u Position.start
    rw [hpast]
    refine ⟨before, by simp only; omega, hcolumn, ?_⟩
    have hindex : ((Position.start.past u).line + 1 - 1).toNat =
        ((Position.start.past u).line - 1).toNat + 1 := by omega
    rw [List.append_assoc, List.cons_append, Text.lines_append hfirst, hindex,
      List.getElem?_cons_succ, hget]

/-! ## Excerpts -/

/-- A line of a source that is shown with a caret under one of its columns. -/
structure Excerpt where
  line : Int
  column : Int
  shown : Text

namespace Excerpt

/-- The excerpt for a place in `line`. -/
def ofLine (line : Text) (pos : Position) : Excerpt :=
  let shown := Text.dropEndWhile (· == .char '\r') line
  ⟨pos.line, min pos.column (shown.length + 1), shown⟩

def heading (x : Excerpt) : Text := Text.ofString s!"  --> line {x.line}, column {x.column}"

def label (x : Excerpt) : Text := Text.ofString s!"{x.line}"

def display (x : Excerpt) : Text :=
  Text.ofString " " ++ (x.label ++ (Text.ofString " | " ++ x.shown))

def caret (x : Excerpt) : Text :=
  Text.ofString " " ++ (Text.spaces x.label.length ++ (Text.ofString " | " ++
    (Text.spaces (x.column - 1).toNat ++ Text.ofString "^")))

def text (x : Excerpt) : Text := Text.join [Text.newline] [x.heading, x.display, x.caret]

/-- The glyph over the caret, which is the last of its line. -/
def aboveCaret (x : Excerpt) : Option Glyph := x.display[x.caret.length - 1]?

theorem length_caret (x : Excerpt) :
    x.caret.length = x.label.length + (x.column - 1).toNat + 5 := by
  have hspace : (Text.ofString " ").length = 1 := rfl
  have hbar : (Text.ofString " | ").length = 3 := rfl
  have hmark : (Text.ofString "^").length = 1 := rfl
  simp only [caret, List.length_append, Text.spaces, List.length_replicate, hspace, hbar, hmark]
  omega

theorem aboveCaret_eq (x : Excerpt) : x.aboveCaret = x.shown[(x.column - 1).toNat]? := by
  have hdisplay : x.display = (Text.ofString " " ++ x.label ++ Text.ofString " | ") ++ x.shown := by
    simp only [display, List.append_assoc]
  have hleft : (Text.ofString " " ++ x.label ++ Text.ofString " | ").length =
      1 + x.label.length + 3 := by
    rw [List.length_append, List.length_append]
    rfl
  rw [aboveCaret, length_caret, hdisplay, List.getElem?_append_right (by omega), hleft]
  congr 1
  omega

end Excerpt

theorem codeFrame_eq {t line : Text} {pos : Position} (hne : t ≠ []) (hline : 1 ≤ pos.line)
    (hcolumn : 1 ≤ pos.column) (hget : (Text.lines t)[(pos.line - 1).toNat]? = some line) :
    codeFrame t pos = some (Excerpt.ofLine line pos).text := by
  have hframe : ¬ (t.isEmpty = true ∨ pos.line ≤ 0) := by
    rintro (h | h)
    · exact hne (List.isEmpty_iff.1 h)
    · omega
  have hmax : max pos.column 1 = pos.column := by omega
  have hbreak : Text.ofString "\n " = Text.newline :: Text.ofString " " := rfl
  have hstring : ∀ s : String, toString s = s := fun _ => rfl
  have hlength : ∀ s : String, (Text.ofString s).length = s.length := by
    intro s
    rw [Text.ofString, List.length_map, String.length_toList]
  simp only [codeFrame, if_neg hframe, hget, hmax, hstring, Text.ofString_append, hbreak,
    Excerpt.text, Text.join_cons, List.flatMap_cons, List.flatMap_nil, Excerpt.heading,
    Excerpt.display, Excerpt.caret, Excerpt.label, List.append_assoc, List.cons_append,
    List.append_nil, hlength]
  rfl

theorem Failure.message_eq {f : Failure} {pos : Position} (h : f.pos? = some pos) :
    ∃ header, ∀ source, f.message source = withFrame source pos header := by
  cases f with
  | rejected r => cases r <;> cases h <;> exact ⟨_, fun _ => rfl⟩
  | faulted e => cases e <;> cases h <;> exact ⟨_, fun _ => rfl⟩

theorem Text.getElem?_dropEndWhile {p : Glyph → Bool} {t : Text} {i : Nat} {g : Glyph}
    (h : t[i]? = some g) (hg : p g = false) : (Text.dropEndWhile p t)[i]? = some g := by
  obtain ⟨w, ht, hw⟩ := Text.dropEndWhile_split p t
  rw [ht, List.getElem?_append] at h
  split at h
  · exact h
  · have := hw g (List.mem_of_getElem? h)
    rw [hg] at this
    cases this

/-- The caret for a place stands under the glyph at that place, unless it is blank. -/
theorem Stands.aboveCaret {t rest : Text} {pos : Position} {g : Glyph}
    (h : Stands t pos (g :: rest)) (hg : g.isBlank = false) {line : Text}
    (hline : (Text.lines t)[(pos.line - 1).toNat]? = some line) :
    (Excerpt.ofLine line pos).column = pos.column ∧
      (Excerpt.ofLine line pos).aboveCaret = some g := by
  obtain ⟨before, _, hcolumn, hget⟩ := h.line
  have hnewline : (g != Text.newline) = true := by
    refine bne_iff_ne.2 ?_
    rintro rfl
    cases hg
  have hreturn : (g == .char '\r') = false := by
    refine beq_false_of_ne ?_
    rintro rfl
    cases hg
  have htake : (g :: rest).takeWhile (· != Text.newline) =
      g :: rest.takeWhile (· != Text.newline) := List.takeWhile_cons_of_pos hnewline
  rw [htake] at hget
  obtain rfl := Option.some.inj (hline.symm.trans hget)
  have hindex : (pos.column - 1).toNat = before.length := by omega
  have hat : (before ++ g :: rest.takeWhile (· != Text.newline))[(pos.column - 1).toNat]? =
      some g := by
    rw [hindex, List.getElem?_append_right (Nat.le_refl _), Nat.sub_self]
    rfl
  have hshown := Text.getElem?_dropEndWhile (p := (· == .char '\r')) hat hreturn
  have hlength := (List.getElem?_eq_some_iff.1 hshown).1
  have hsame : (Excerpt.ofLine (before ++ g :: rest.takeWhile (· != Text.newline)) pos).column =
      pos.column := by
    simp only [Excerpt.ofLine]
    omega
  exact ⟨hsame, by rw [Excerpt.aboveCaret_eq, hsame]; exact hshown⟩

/-- A failure of a source that is not empty has a place in it: one of its lines, and a column of
that line or the one after its last. The message ends with an excerpt of that line, without its
trailing carriage returns. Unless the text is at its end there, the caret stands in the column of
the failure, under the first glyph of what it is about; at the end it stands at most one column past
what is shown. -/
theorem Engine.excerpt_of_failure {e : Engine} {src : List UInt8} {f : Failure} (hne : src ≠ [])
    (h : e.eval (Text.ofBytes src) = .error f ∨
      (e.run (Text.ofBytes src)).failure? = some f) :
    let t := Text.ofBytes src
    ∃ pos line, f.pos? = some pos ∧ 1 ≤ pos.line ∧ pos.line ≤ (Text.lines t).length ∧
      (Text.lines t)[(pos.line - 1).toNat]? = some line ∧
      1 ≤ pos.column ∧ pos.column ≤ line.length + 1 ∧
      ∃ header, ∃ x : Excerpt, f.message t = header ++ Text.newline :: x.text ∧
        x.line = pos.line ∧ x.shown = Text.dropEndWhile (· == .char '\r') line ∧
        if f.atEnd then x.column = min pos.column (x.shown.length + 1)
        else x.column = pos.column ∧ ∃ g, x.aboveCaret = some g ∧ f.offender? = some g.code := by
  have ht : Text.ofBytes src ≠ [] := by
    intro hnil
    refine hne ?_
    rw [← Text.toBytes_ofBytes src, hnil]
    rfl
  revert h ht
  generalize Text.ofBytes src = t
  intro h ht
  dsimp only
  obtain ⟨pos, v, hpos, hstands, hwhat⟩ := h.elim Engine.placed_of_eval Engine.placed_of_run
  obtain ⟨before, hline, hcolumn, hget⟩ := hstands.line
  obtain ⟨header, hmessage⟩ := Failure.message_eq hpos
  have hindex := (List.getElem?_eq_some_iff.1 hget).1
  have hone : 1 ≤ pos.column := by omega
  refine ⟨pos, _, hpos, hline, by omega, hget, hone, ?_, header, .ofLine _ pos, ?_, rfl, rfl, ?_⟩
  · rw [List.length_append]
    omega
  · rw [hmessage, withFrame, codeFrame_eq ht hline hone hget]
    exact List.append_assoc _ _ _
  · split
    · rfl
    · rename_i hend
      rw [if_neg hend] at hwhat
      obtain ⟨g, rest, rfl, hblank, hoffender⟩ := hwhat
      obtain ⟨hsame, hcaret⟩ := hstands.aboveCaret hblank hget
      exact ⟨hsame, g, hcaret, hoffender⟩

/-- A byte that belongs to no character, between two carriage returns of which one ends the line
above. -/
theorem Engine.excerpt_of_failure_stray :
    let t := Text.ofBytes [49, 43, 13, 10, 32, 255, 13]
    let f := Failure.rejected (.lex ⟨⟨2, 2⟩, .unexpected (.stray 255)⟩)
    (⟨1, .floor⟩ : Engine).eval t = .error f ∧
      ∃ header, ∃ x : Excerpt, f.message t = header ++ Text.newline :: x.text ∧
        x.line = 2 ∧ x.column = 2 ∧ x.shown = [.char ' ', .stray 255] ∧
        x.aboveCaret.map Glyph.code = some 0xFFFD := by
  intro t f
  have hparse : rejection? ((⟨1, .floor⟩ : Engine).parseExpression t) =
      some (.lex ⟨⟨2, 2⟩, .unexpected (.stray 255)⟩) := by decide +kernel
  have heval : (⟨1, .floor⟩ : Engine).eval t = .error f := by
    rw [Engine.eval, eq_error_of_rejection? hparse]
  obtain ⟨pos, line, hpos, _, _, hline, _, _, header, x, hmessage, hxline, hshown, hcolumn, g,
    hcaret, hg⟩ := Engine.excerpt_of_failure (by decide) (.inl heval)
  cases hpos
  have hsecond : (Text.lines t)[1]? = some [.char ' ', .stray 255, .char '\r'] := by decide +kernel
  cases hsecond.symm.trans hline
  refine ⟨heval, header, x, hmessage, hxline, hcolumn, hshown.trans (by decide), ?_⟩
  rw [hcaret]
  exact hg.symm

end BlockCalc
