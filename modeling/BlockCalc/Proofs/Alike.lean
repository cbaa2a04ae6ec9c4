import BlockCalc.Proofs.Completion
import BlockCalc.Proofs.RunPlaces
import BlockCalc.Proofs.Trimming

/-!
# BlockCalc.Proofs.Alike

Texts that differ in blanks between their lexemes at most. They are accepted alike up to places, so
they are unfinished alike and leave the same in a session; only the wording of errors tells them
apart (`Session.evaluate_congr`).
-/

namespace BlockCalc

open Grammar

/-! ## Spelling across a blank -/

theorem Spells.unique {t : Text} {ls ls' : List Lexeme} (h : Spells t ls) (h' : Spells t ls') :
    ls = ls' :=
  (h.scan .start).1.symm.trans (h'.scan .start).1

theorem spells_append_blank {b : Glyph} (hb : b.isBlank = true) {t more : Text}
    {ls : List Lexeme} :
    Spells (t ++ b :: more) ls ↔ ∃ us vs, Spells t us ∧ Spells more vs ∧ ls = us ++ vs := by
  constructor
  · intro h
    obtain ⟨hls, q, hq⟩ := h.scan .start
    cases hstop : (Cursor.ofText t).scan.stop with
    | fault e =>
      have := Cursor.scan_append_fault hb more (Cursor.ofText t) hstop
      rw [Cursor.ofText] at this hstop
      rw [this, hstop] at hq
      cases hq
    | eof q' =>
      have := Cursor.scan_append_eof hb more (Cursor.ofText t) hstop
      rw [Cursor.ofText] at this
      rw [this] at hls hq
      exact ⟨_, _, Cursor.spells_scan _ hstop, Cursor.spells_scan ⟨more, q'.after b⟩ hq,
        by rw [← hls, lexemes_append]; rfl⟩
  · rintro ⟨us, vs, ht, hmore, rfl⟩
    obtain ⟨hus, q, hq⟩ := ht.scan .start
    obtain ⟨hvs, q', hq'⟩ := hmore.scan (q.after b)
    have happend := Cursor.scan_append_eof hb more (Cursor.ofText t) hq
    have := Cursor.spells_scan ⟨t ++ b :: more, .start⟩ (q := q')
      (by rw [Cursor.ofText] at happend; rw [happend, hq'])
    rw [Cursor.ofText] at happend
    rwa [happend, lexemes_append, hus, hvs] at this

/-! ## Texts that are read alike -/

/-- The same lexemes are read from both texts, or both have a fault. -/
def Alike (t u : Text) : Prop := ∀ ls, Spells t ls ↔ Spells u ls

namespace Alike

variable {t t' u u' w : Text}

theorem refl (t : Text) : Alike t t := fun _ => .rfl

theorem symm (h : Alike t u) : Alike u t := fun ls => (h ls).symm

theorem trans (h : Alike t u) (h' : Alike u w) : Alike t w := fun ls => (h ls).trans (h' ls)

theorem append_of_blank {b b' : Glyph} (hb : b.isBlank = true) (hb' : b'.isBlank = true)
    (ht : Alike t t') (hu : Alike u u') : Alike (t ++ b :: u) (t' ++ b' :: u') := by
  intro ls
  simp only [spells_append_blank hb, spells_append_blank hb', ht _, hu _]

theorem append {b : Glyph} (hb : b.isBlank = true) (ht : Alike t t') (hu : Alike u u') :
    Alike (t ++ b :: u) (t' ++ b :: u') := append_of_blank hb hb ht hu

theorem blanks_append (hw : Blanks w) (t : Text) : Alike (w ++ t) t := by
  intro ls
  refine ⟨fun h => ?_, fun h => h.blanks hw⟩
  rcases List.eq_nil_or_concat w with rfl | ⟨w', b, rfl⟩
  · exact h
  · rw [List.concat_eq_append, List.append_assoc] at h
    obtain ⟨us, vs, hus, hvs, rfl⟩ := (spells_append_blank (hw b (by simp))).1 h
    have hw' : Spells w' [] := .nil fun g hg => hw g (by simp [hg])
    rwa [hus.unique hw']

theorem append_blanks (hw : Blanks w) (t : Text) : Alike (t ++ w) t := by
  intro ls
  cases w with
  | nil => rw [List.append_nil]
  | cons b w =>
    obtain ⟨hb, hw⟩ := List.forall_mem_cons.1 hw
    have hnil : Spells w [] := .nil hw
    rw [spells_append_blank hb]
    constructor
    · rintro ⟨us, vs, hus, hvs, rfl⟩
      rwa [hvs.unique hnil, List.append_nil]
    · intro h
      exact ⟨ls, [], h, hnil, (List.append_nil ls).symm⟩

theorem trim (t : Text) : Alike (Text.trim t) t := by
  obtain ⟨w, w', hw, hw', ht, _⟩ := Text.trim_split t
  have h := (blanks_append hw (Text.trim t ++ w')).trans (append_blanks hw' (Text.trim t))
  rw [← ht] at h
  exact h.symm

theorem join_trim (ls : List Text) :
    Alike (Text.join [Text.newline] (ls.map Text.trim)) (Text.join [Text.newline] ls) := by
  induction ls with
  | nil => exact refl _
  | cons t ls ih =>
    cases ls with
    | nil =>
      rw [List.map_cons, List.map_nil, Text.join_cons, Text.join_cons, List.flatMap_nil,
        List.append_nil, List.append_nil]
      exact trim t
    | cons u us =>
      rw [List.map_cons, Text.join_cons] at ih ⊢
      rw [Text.join_cons] at ih ⊢
      exact append isBlank_newline (trim t) ih

/-- It makes no difference to lexemes whether they stand on one line. -/
theorem oneLine (t : Text) : Alike (Text.oneLine t) t := by
  induction t using Text.lines_induction with
  | last h =>
    rw [Text.oneLine_of_no_newline h]
    exact refl _
  | line h ih =>
    rw [Text.oneLine_append, Text.oneLine_of_no_newline h, Text.oneLine_newline_cons]
    exact append_of_blank (by decide) isBlank_newline (refl _) ih

end Alike

/-! ## Accepted alike -/

variable {t u : Text}

theorem Alike.tokenized (h : Alike t u) {ts : List Token} (hts : Tokenized t ts) :
    ∃ us, Tokenized u us ∧ lexemes us = lexemes ts :=
  spells_iff.1 ((h _).1 (spells_iff.2 ⟨ts, hts, rfl⟩))

theorem Program.parse_alike (h : Alike t u) {limit : Nat} {p : Program}
    (hp : Program.parse limit t = .ok p) :
    ∃ p' : Program, p'.bare = p.bare ∧ Program.parse limit u = .ok p' := by
  obtain ⟨ts, hts, n, hn, hd⟩ := Program.parse_eq_ok_iff.1 hp
  obtain ⟨us, hus, hlexemes⟩ := h.tokenized hts
  obtain ⟨p', hp', hd'⟩ := hd.relabel us hlexemes
  exact ⟨p', hp', Program.parse_eq_ok_iff.2 ⟨us, hus, n, hn, hd'⟩⟩

theorem Expr.parse_alike (h : Alike t u) {limit : Nat} {x : Expr}
    (hx : Expr.parse limit t = .ok x) :
    ∃ x' : Expr, x'.bare = x.bare ∧ Expr.parse limit u = .ok x' := by
  obtain ⟨ts, hts, n, hn, hd⟩ := Expr.parse_eq_ok_iff.1 hx
  obtain ⟨us, hus, hlexemes⟩ := h.tokenized hts
  obtain ⟨x', hx', hd'⟩ := hd.relabel us hlexemes
  exact ⟨x', hx', Expr.parse_eq_ok_iff.2 ⟨us, hus, n, hn, hd'⟩⟩

theorem spells_of_parse {limit : Nat} {p : Program} (h : Program.parse limit t = .ok p) :
    ∃ ls, Spells t ls := by
  obtain ⟨ts, hts, _⟩ := Program.parse_eq_ok_iff.1 h
  exact ⟨_, spells_iff.2 ⟨ts, hts, rfl⟩⟩

theorem spells_of_parseExpression {limit : Nat} {x : Expr} (h : Expr.parse limit t = .ok x) :
    ∃ ls, Spells t ls := by
  obtain ⟨ts, hts, _⟩ := Expr.parse_eq_ok_iff.1 h
  exact ⟨_, spells_iff.2 ⟨ts, hts, rfl⟩⟩

theorem detectMode_of_spells {ls : List Lexeme} (h : Spells t ls) :
    detectMode t = .program ↔ ls.head? = some .beginWord := by
  obtain ⟨rfl, _⟩ := h.scan .start
  rw [detectMode_eq_program]
  change (∃ p ts, (Scan.ofText t).tokens = ⟨.beginWord, p⟩ :: ts) ↔
    (lexemes (Scan.ofText t).tokens).head? = some .beginWord
  cases (Scan.ofText t).tokens with
  | nil => simp
  | cons u us =>
    obtain ⟨l, p⟩ := u
    simp

theorem detectMode_congr {ls : List Lexeme} (ht : Spells t ls) (hu : Spells u ls) :
    detectMode t = detectMode u := by
  have h := (detectMode_of_spells ht).trans (detectMode_of_spells hu).symm
  cases ht : detectMode t <;> cases hu : detectMode u <;> simp_all

theorem Engine.isIncomplete_of_alike {e : Engine} (h : Alike t u) (ht : e.isIncomplete t = true) :
    e.isIncomplete u = true := by
  obtain ⟨hmode, q, kinds, herror⟩ := Engine.isIncomplete_iff_atEnd.1 ht
  obtain ⟨bs, p, hp⟩ := Program.exists_completion herror
  obtain ⟨ls, hls⟩ := spells_of_parse hp
  obtain ⟨us, _, hus, _⟩ := (spells_append_blank isBlank_newline).1 hls
  obtain ⟨p', _, hp'⟩ := Program.parse_alike (h.append isBlank_newline (.refl _)) hp
  have hfail : ∀ p, Program.parse e.maxDepth u ≠ .ok p := by
    intro p hu
    obtain ⟨p', _, ht'⟩ := Program.parse_alike h.symm hu
    exact absurd (herror.symm.trans ht') nofun
  obtain ⟨q', kinds', hu⟩ := Program.rejected_at_end hfail hp'
  exact Engine.isIncomplete_iff_atEnd.2
    ⟨(detectMode_congr hus ((h us).1 hus)).symm.trans hmode, q', kinds', hu⟩

theorem Engine.isIncomplete_congr (e : Engine) (h : Alike t u) :
    e.isIncomplete t = e.isIncomplete u :=
  Bool.eq_iff_iff.2 ⟨isIncomplete_of_alike h, isIncomplete_of_alike h.symm⟩

/-! ## Run alike -/

/-- What a result says but for how its failure is worded. -/
def ExecResult.verdict (r : ExecResult) : Option Text × Option Env :=
  (match r.failure? with
    | some _ => none
    | none => some (Session.answer r), r.env?)

theorem Engine.verdict_program (e : Engine) (h : Alike t u) :
    (ExecResult.program (e.run t)).verdict = (ExecResult.program (e.run u)).verdict := by
  unfold Engine.run
  cases ht : e.parse t with
  | error r =>
    cases hu : e.parse u with
    | error r' => rfl
    | ok p =>
      obtain ⟨p', _, ht'⟩ := Program.parse_alike h.symm hu
      exact absurd (ht.symm.trans ht') nofun
  | ok p =>
    obtain ⟨p', hbare, hu⟩ := Program.parse_alike h ht
    rw [Engine.parse, hu]
    rcases Evaluated.cases_of_bare_eq (Program.eval_congr hbare e.division Env.empty) with
      ⟨_, _, hp, hp'⟩ | ⟨_, _, _, _, hp, hp'⟩
    · simp only [hp, hp']; rfl
    · simp only [hp, hp']; rfl

theorem Expr.asInt_congr {x x' : Expr} (h : x'.bare = x.bare) (mode : Division) (env : Env) :
    ((x'.toTree.eval mode env).andThen (Tree.asInt x'.toTree.pos)).bare =
      ((x.toTree.eval mode env).andThen (Tree.asInt x.toTree.pos)).bare := by
  rw [← Evaluated.bare_andThen _ (Tree.asInt_bare _),
    ← Evaluated.bare_andThen _ (Tree.asInt_bare _), Expr.eval_congr h]

theorem Engine.verdict_expression (e : Engine) (h : Alike t u) :
    (ExecResult.expression (e.eval t)).verdict = (ExecResult.expression (e.eval u)).verdict := by
  unfold Engine.eval
  cases ht : e.parseExpression t with
  | error r =>
    cases hu : e.parseExpression u with
    | error r' => rfl
    | ok x =>
      obtain ⟨x', _, ht'⟩ := Expr.parse_alike h.symm hu
      exact absurd (ht.symm.trans ht') nofun
  | ok x =>
    obtain ⟨x', hbare, hu⟩ := Expr.parse_alike h ht
    rw [Engine.parseExpression, hu]
    rcases Evaluated.cases_of_bare_eq (Expr.asInt_congr hbare e.division Env.empty) with
      ⟨_, _, hx, hx'⟩ | ⟨_, _, _, _, hx, hx'⟩
    · simp only [hx, hx']
    · simp only [hx, hx']; rfl

theorem Engine.verdict_of_fault {e : Engine} (h : ∀ ls, ¬ Spells t ls) :
    (e.exec t).verdict = (none, none) := by
  unfold Engine.exec
  cases detectMode t with
  | program =>
    cases hp : e.parse t with
    | error r => simp [Engine.run, hp, ExecResult.verdict, ExecResult.failure?, ExecResult.env?,
        RunResult.failure?, RunResult.env?]
    | ok p =>
      obtain ⟨ls, hls⟩ := spells_of_parse hp
      exact absurd hls (h ls)
  | expression =>
    cases hx : e.parseExpression t with
    | error r => simp [Engine.eval, hx, ExecResult.verdict, ExecResult.failure?, ExecResult.env?]
    | ok x =>
      obtain ⟨ls, hls⟩ := spells_of_parseExpression hx
      exact absurd hls (h ls)

theorem Engine.verdict_congr (e : Engine) (h : Alike t u) :
    (e.exec t).verdict = (e.exec u).verdict := by
  by_cases hspelled : ∃ ls, Spells t ls
  · obtain ⟨ls, ht⟩ := hspelled
    unfold Engine.exec
    rw [detectMode_congr ht ((h ls).1 ht)]
    cases detectMode u with
    | program => exact e.verdict_program h
    | expression => exact e.verdict_expression h
  · have ht : ∀ ls, ¬ Spells t ls := fun ls hls => hspelled ⟨ls, hls⟩
    rw [Engine.verdict_of_fault ht, Engine.verdict_of_fault fun ls hls => ht ls ((h ls).2 hls)]

/-- The text of a successful reply. -/
def Reply.success? (r : Reply) : Option Text := if r.isError then none else some r.text

theorem Session.evaluate_eq (s : Session) (entry : Text) :
    (s.evaluate entry).1.success? = (s.engine.exec entry).verdict.1 ∧
      (s.evaluate entry).2 =
        { s with lastEnv := (s.engine.exec entry).verdict.2.or s.lastEnv } := by
  unfold evaluate ExecResult.verdict
  cases hf : (s.engine.exec entry).failure? <;> cases he : (s.engine.exec entry).env? <;>
    simp [hf, he, Reply.success?]

/-- Entries that are read alike are answered alike. -/
theorem Session.evaluate_congr (s : Session) (h : Alike t u) :
    (s.evaluate t).1.success? = (s.evaluate u).1.success? ∧
      (s.evaluate t).2 = (s.evaluate u).2 := by
  obtain ⟨ht, ht'⟩ := s.evaluate_eq t
  obtain ⟨hu, hu'⟩ := s.evaluate_eq u
  rw [ht, ht', hu, hu', s.engine.verdict_congr h]
  exact ⟨rfl, rfl⟩

end BlockCalc
