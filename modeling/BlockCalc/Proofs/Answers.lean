import BlockCalc.LineLoop
import BlockCalc.Proofs.Alike
import BlockCalc.Proofs.Faults

/-!
# BlockCalc.Proofs.Answers

Texts that are shown as they are. A text on one line without control characters is displayed without
a change (`Text.display_of_showable`). Every successful answer of a session is such a text: it is
made of numbers and of names that a program has bound (`Session.showable_success`).
-/

namespace BlockCalc

/-! ## Showable glyphs -/

/-- A glyph that a field takes as it is: a character that is neither a control character nor
U+FFFD. -/
def Glyph.Showable (g : Glyph) : Prop :=
  0x20 ≤ g.code ∧ ¬ (0x7F ≤ g.code ∧ g.code ≤ 0x9F) ∧ g.code ≠ 0xFFFD

instance : DecidablePred Glyph.Showable := fun g =>
  inferInstanceAs (Decidable (0x20 ≤ g.code ∧ ¬ (0x7F ≤ g.code ∧ g.code ≤ 0x9F) ∧ g.code ≠ 0xFFFD))

/-- The code points above ASCII that a field does not keep, and the one before them. -/
def unshown : Intervals := [(0x7F, 0x9F), (0xFFFD, 0xFFFD)]

theorem unshown_apart_letters :
    ∀ r ∈ unshown, ∀ s ∈ Letter.letters, r.2 < s.1 ∨ s.2 < r.1 := by decide +kernel

theorem unshown_apart_digits :
    ∀ r ∈ unshown, ∀ s ∈ Letter.digits, r.2 < s.1 ∨ s.2 < r.1 := by decide +kernel

theorem Glyph.showable_of_isWordPart {g : Glyph} (h : g.isWordPart = true) : g.Showable := by
  by_cases hcode : g.code < 0x80
  · have := (Glyph.isWordPart_ascii hcode).1 h
    exact ⟨by omega, by omega, by omega⟩
  · cases hcovers : unshown.covers g.code with
    | true =>
      have hl := Intervals.not_covers_of_apart unshown_apart_letters hcovers
      have hd := Intervals.not_covers_of_apart unshown_apart_digits hcovers
      simp [isWordPart, isLetter, isDigit, hcode, hl, hd] at h
    | false =>
      simp only [Intervals.covers, unshown, List.any_cons, List.any_nil, Bool.or_false,
        Bool.or_eq_false_iff, Bool.and_eq_false_iff, decide_eq_false_iff_not] at hcovers
      exact ⟨by omega, by omega, by omega⟩

theorem IsWord.showable {t : Text} (h : IsWord t) : ∀ g ∈ t, g.Showable :=
  fun g hg => Glyph.showable_of_isWordPart (h.isWordPart g hg)

/-! ## Displaying them -/

namespace Text

theorem expandTabs_of_showable {t : Text} (h : ∀ g ∈ t, g.Showable) : expandTabs t = t := by
  induction t with
  | nil => rfl
  | cons g t ih =>
    obtain ⟨hg, ht⟩ := List.forall_mem_cons.1 h
    have htab : g ≠ .char '\t' := by
      rintro rfl
      exact absurd hg (by decide)
    rw [expandTabs, List.flatMap_cons, if_neg htab, List.singleton_append]
    exact congrArg (g :: ·) (ih ht)

theorem plainLineEnds_of_showable {t : Text} (h : ∀ g ∈ t, g.Showable) : plainLineEnds t = t := by
  induction t with
  | nil => rfl
  | cons g t ih =>
    obtain ⟨hg, ht⟩ := List.forall_mem_cons.1 h
    have hreturn : ¬ (g = .char '\r' ∧ t.head? = some newline) := by
      rintro ⟨rfl, _⟩
      exact absurd hg (by decide)
    rw [plainLineEnds, if_neg hreturn, ih ht]

theorem aligned_singleton (t : Text) : aligned [t] = [t] := by
  have hwidest : widest [t] = t.width := Nat.zero_max _
  rw [aligned, List.map_singleton, hwidest, Nat.sub_self]
  exact congrArg ([·]) (List.append_nil t)

/-- A showable text is one line, and it is displayed as it is. -/
theorem display_of_showable {t : Text} (h : ∀ g ∈ t, g.Showable) : display t = t := by
  have hline : newline ∉ t := fun hmem => absurd (h newline hmem) (by decide)
  rw [display, expandTabs_of_showable h, plainLineEnds_of_showable h, lines_of_no_newline hline,
    aligned_singleton]
  simp [join_cons]

/-! ## Numbers and bindings -/

theorem showable_nat (n : Nat) : ∀ g ∈ ofString n.repr, g.Showable := by
  intro g hg
  exact Glyph.showable_of_isWordPart (Glyph.isWordPart_of_isAsciiDigit ((isNumeral_repr n).2 g hg))

theorem showable_int (i : Int) : ∀ g ∈ ofString i.repr, g.Showable := by
  cases i with
  | ofNat n => exact showable_nat n
  | negSucc n =>
    have hsign : (Int.negSucc n).repr = "-" ++ (n + 1).repr := rfl
    rw [hsign, ofString_append]
    exact List.forall_mem_append.2 ⟨by decide, showable_nat (n + 1)⟩

theorem showable_intercalate {sep : String} (hsep : ∀ g ∈ ofString sep, g.Showable)
    {pieces : List String} (h : ∀ s ∈ pieces, ∀ g ∈ ofString s, g.Showable) :
    ∀ g ∈ ofString (sep.intercalate pieces), g.Showable := by
  induction pieces with
  | nil => exact nofun
  | cons s pieces ih =>
    obtain ⟨hs, hpieces⟩ := List.forall_mem_cons.1 h
    cases pieces with
    | nil =>
      rw [String.intercalate_singleton]
      exact hs
    | cons next pieces =>
      rw [String.intercalate_cons_cons, ofString_append, ofString_append]
      exact List.forall_mem_append.2 ⟨List.forall_mem_append.2 ⟨hs, hsep⟩, ih hpieces⟩

end Text

theorem Env.showable_render {env : Env} (h : ∀ x ∈ env.names, IsName x) :
    ∀ g ∈ Text.ofString (env.render ", "), g.Showable := by
  refine Text.showable_intercalate (by decide) fun s hs => ?_
  obtain ⟨b, hb, rfl⟩ := List.mem_map.1 hs
  have hname := (h b.1 (List.mem_map_of_mem hb)).1.showable
  have hbinding : ∀ g ∈ Text.ofString (b.1 ++ " = " ++ b.2.toInt.repr), g.Showable := by
    rw [Text.ofString_append, Text.ofString_append]
    exact List.forall_mem_append.2
      ⟨List.forall_mem_append.2 ⟨hname, by decide⟩, Text.showable_int _⟩
  exact hbinding

/-! ## The answers of a session -/

theorem Engine.showable_answer {e : Engine} {t : Text} (h : (e.exec t).failure? = none) :
    ∀ g ∈ Session.answer (e.exec t), g.Showable := by
  unfold Engine.exec at h ⊢
  cases hmode : detectMode t with
  | expression => exact Text.showable_int _
  | program =>
    rw [hmode] at h
    rcases e.run_cases t with ⟨r, hr⟩ | ⟨p, env, hp⟩ | ⟨p, env, f, hf, _⟩
    · simp [hr, ExecResult.failure?, RunResult.failure?] at h
    · rw [hp]
      simp only [Session.answer]
      split
      · decide
      · exact Env.showable_render (Engine.isName_of_run (by rw [hp]; rfl))
    · simp [hf, ExecResult.failure?, RunResult.failure?] at h

theorem Session.showable_success {s : Session} {entry text : Text}
    (h : (s.evaluate entry).1.success? = some text) : ∀ g ∈ text, g.Showable := by
  rw [(s.evaluate_eq entry).1, ExecResult.verdict] at h
  cases hfailure : (s.engine.exec entry).failure? with
  | some f =>
    rw [hfailure] at h
    cases h
  | none =>
    rw [hfailure] at h
    cases h
    exact Engine.showable_answer hfailure

end BlockCalc
