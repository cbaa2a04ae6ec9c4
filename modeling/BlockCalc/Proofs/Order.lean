import BlockCalc.Proofs.Scanning

/-!
# BlockCalc.Proofs.Order

The order of places. Scanning goes forward, so the tokens of a text and the place where they stop
come one before the other (`Scan.ascending_ofText`), and no two of them share a place.
-/

namespace BlockCalc
namespace Position

/-- On an earlier line, or further left on the same line. -/
def Before (p q : Position) : Prop := p.line < q.line ∨ (p.line = q.line ∧ p.column < q.column)

theorem Before.trans {p q r : Position} (hpq : p.Before q) (hqr : q.Before r) : p.Before r := by
  unfold Before at *
  omega

theorem Before.ne {p q : Position} (h : p.Before q) : p ≠ q := by
  rintro rfl
  unfold Before at h
  omega

theorem le_iff {p q : Position} : p.le q = true ↔ p = q ∨ p.Before q := by
  obtain ⟨l, c⟩ := p
  obtain ⟨l', c'⟩ := q
  simp only [le, Before, mk.injEq]
  split <;> simp only [decide_eq_true_eq] <;> omega

theorem Before.le {p q : Position} (h : p.Before q) : p.le q = true := le_iff.2 (.inr h)

theorem le_refl (p : Position) : p.le p = true := le_iff.2 (.inl rfl)

theorem le_trans {p q r : Position} (hpq : p.le q = true) (hqr : q.le r = true) :
    p.le r = true := by
  rcases le_iff.1 hpq with rfl | hpq
  · exact hqr
  · rcases le_iff.1 hqr with rfl | hqr
    · exact hpq.le
    · exact (hpq.trans hqr).le

theorem Before.trans_le {p q r : Position} (hpq : p.Before q) (hqr : q.le r = true) :
    p.Before r := by
  rcases le_iff.1 hqr with rfl | hqr
  · exact hpq
  · exact hpq.trans hqr

theorem le_total (p q : Position) : (p.le q || q.le p) = true := by
  simp only [le, Bool.or_eq_true]
  by_cases h : p.line = q.line
  · simp only [h, if_true, decide_eq_true_eq]
    omega
  · simp only [h, Ne.symm h, if_false, decide_eq_true_eq]
    omega

theorem before_after (p : Position) (g : Glyph) : p.Before (p.after g) := by
  unfold Before after
  split
  · exact .inl (by simp only; omega)
  · exact .inr ⟨rfl, by simp only; omega⟩

theorem le_past (p : Position) (t : Text) : p.le (p.past t) = true := by
  induction t generalizing p with
  | nil => exact p.le_refl
  | cons g t ih => exact le_trans (p.before_after g).le (ih (p.after g))

theorem before_past (p : Position) {t : Text} (h : t ≠ []) : p.Before (p.past t) := by
  obtain ⟨g, t, rfl⟩ := List.exists_cons_of_ne_nil h
  exact (p.before_after g).trans_le (le_past _ t)

end Position

theorem Lexeme.Proper.glyphs_ne_nil {l : Lexeme} (h : l.Proper) : l.glyphs ≠ [] := by
  cases l with
  | integer digits v => exact h.1.1
  | ident x =>
    obtain ⟨⟨g, rest, hx, _⟩, _⟩ := h
    simp only [glyphs, literal, hx]
    exact List.cons_ne_nil _ _
  | _ => decide

/-- The places of the tokens, and then the place where they stop. -/
def Scan.places (s : Scan) : List Position := s.tokens.map (·.pos) ++ [s.stop.pos]

theorem Cursor.le_step_stop {c : Cursor} {s : Stop} (h : c.step = .stop s) :
    c.pos.le s.pos = true := by
  cases s with
  | eof q =>
    obtain ⟨_, rfl⟩ := step_eof_iff.1 h
    exact Position.le_past _ _
  | fault e =>
    obtain ⟨w, _, _, _, _, _, hpos⟩ := step_fault_iff.1 h
    simp only [Stop.pos, hpos]
    exact Position.le_past _ _

theorem Cursor.ascending_scan (c : Cursor) :
    c.scan.places.Pairwise Position.Before ∧ ∀ p ∈ c.scan.places, c.pos.le p = true := by
  induction c using scan_induction with
  | @token c after t h ih =>
    obtain ⟨hpairs, hafter⟩ := ih
    obtain ⟨w, _, _, hl, _, hpos, hnext⟩ := step_token_iff.1 h
    have hstart : c.pos.le t.pos = true := hpos ▸ Position.le_past _ _
    have hlater : ∀ p ∈ after.scan.places, t.pos.Before p := by
      intro p hp
      have := t.pos.before_past hl.glyphs_ne_nil
      rw [← hnext] at this
      exact this.trans_le (hafter p hp)
    rw [scan_token h]
    refine ⟨List.pairwise_cons.2 ⟨hlater, hpairs⟩, ?_⟩
    intro p hp
    rcases List.mem_cons.1 hp with rfl | hp
    · exact hstart
    · exact Position.le_trans hstart (hlater p hp).le
  | stop h =>
    rw [scan_stop h]
    refine ⟨List.pairwise_singleton _ _, ?_⟩
    intro p hp
    cases List.mem_singleton.1 hp
    exact le_step_stop h

theorem Scan.ascending_ofText (t : Text) : (Scan.ofText t).places.Pairwise Position.Before :=
  (Cursor.ascending_scan (Cursor.ofText t)).1

end BlockCalc
