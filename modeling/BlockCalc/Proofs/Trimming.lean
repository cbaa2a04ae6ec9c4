import BlockCalc.Session
import BlockCalc.Proofs.Bytes
import BlockCalc.Proofs.Spelling

/-!
# BlockCalc.Proofs.Trimming

Blanks at the ends of a text and of its lines. A text is what `trim` leaves with blanks around it
(`trim_split`), and is trimmed to any part that has no blanks at its ends and blanks around it
(`trim_eq`). Trimming an entry of several lines does nothing that trimming each of them would not
do (`map_trim_lines_trim`).
-/

namespace BlockCalc
namespace Text

theorem dropEndWhile_split (p : Glyph → Bool) (t : Text) :
    ∃ w, t = dropEndWhile p t ++ w ∧ ∀ g ∈ w, p g = true := by
  refine ⟨(t.reverse.takeWhile p).reverse, ?_, ?_⟩
  · rw [dropEndWhile, ← List.reverse_append, List.takeWhile_append_dropWhile, List.reverse_reverse]
  · intro g hg
    exact List.all_eq_true.1 List.all_takeWhile g (List.mem_reverse.1 hg)

theorem trim_split (t : Text) : ∃ w w', Blanks w ∧ Blanks w' ∧ t = w ++ (trim t ++ w') ∧
    StopsAt Glyph.isBlank (trim t) ∧ StopsAt Glyph.isBlank (trim t).reverse := by
  have hleft : t.takeWhile Glyph.isBlank ++ trimLeft t = t := List.takeWhile_append_dropWhile
  obtain ⟨w', hright, hw'⟩ := dropEndWhile_split Glyph.isBlank (trimLeft t)
  rw [← trim] at hright
  refine ⟨_, w', List.all_eq_true.1 List.all_takeWhile, hw', by rw [← hright, hleft], ?_, ?_⟩
  · intro g hg
    refine stopsAt_dropWhile Glyph.isBlank t g ?_
    rw [← trimLeft, hright, List.head?_append, Option.mem_def.1 hg]
    rfl
  · rw [trim, dropEndWhile, List.reverse_reverse]
    exact stopsAt_dropWhile _ _

theorem trim_eq {w core w' : Text} (hw : Blanks w) (hw' : Blanks w') (hne : core ≠ [])
    (hhead : StopsAt Glyph.isBlank core) (hlast : StopsAt Glyph.isBlank core.reverse) :
    trim (w ++ (core ++ w')) = core := by
  have hcore : StopsAt Glyph.isBlank (core ++ w') := by
    obtain ⟨g, rest, rfl⟩ := List.exists_cons_of_ne_nil hne
    exact hhead
  rw [trim, trimLeft, dropWhile_run hw hcore, dropEndWhile, List.reverse_append,
    dropWhile_run (fun g hg => hw' g (List.mem_reverse.1 hg)) hlast, List.reverse_reverse]

theorem blanks_of_trim_eq_nil {t : Text} (h : trim t = []) : Blanks t := by
  obtain ⟨w, w', hw, hw', ht, _⟩ := trim_split t
  rw [h, List.nil_append] at ht
  rw [ht]
  exact fun g hg => (List.mem_append.1 hg).elim (hw g) (hw' g)

/-- A text that begins with no blank is left its beginning. -/
theorem head?_trim_cons {g : Glyph} (hg : g.isBlank = false) (rest : Text) :
    (trim (g :: rest)).head? = some g := by
  obtain ⟨w, w', hw, hw', ht, _⟩ := trim_split (g :: rest)
  have hblank : ∀ {u v : Text}, Blanks u → g :: rest = u ++ v → u = [] := by
    intro u v hu heq
    cases u with
    | nil => rfl
    | cons b u =>
      obtain ⟨rfl, _⟩ := List.cons.inj heq
      exact absurd (hu g List.mem_cons_self) (by simp [hg])
  rw [hblank hw ht, List.nil_append] at ht
  cases hcore : trim (g :: rest) with
  | nil =>
    rw [hcore, List.nil_append, ← List.append_nil w'] at ht
    rw [hblank hw' ht] at ht
    cases ht
  | cons c core =>
    rw [hcore] at ht
    rw [(List.cons.inj ht).1]
    rfl

theorem mem_of_mem_trim {t : Text} {g : Glyph} (h : g ∈ trim t) : g ∈ t := by
  obtain ⟨w, w', _, _, ht, _⟩ := trim_split t
  rw [ht]
  exact List.mem_append_right _ (List.mem_append_left _ h)

theorem trim_trim (t : Text) : trim (trim t) = trim t := by
  obtain ⟨_, _, _, _, _, hhead, hlast⟩ := trim_split t
  by_cases hne : trim t = []
  · rw [hne]; rfl
  · have hnil : Blanks [] := nofun
    have h := trim_eq hnil hnil hne hhead hlast
    rwa [List.nil_append, List.append_nil] at h

/-! ## Lines -/

theorem join_cons (first : Text) (more : List Text) :
    join [newline] (first :: more) = first ++ more.flatMap (newline :: ·) := by
  induction more generalizing first with
  | nil => simp [join, List.intercalate]
  | cons t more ih =>
    have := ih t
    simp only [join, List.intercalate, List.intersperse_cons_cons, List.flatten_cons] at this ⊢
    rw [this]
    rfl

theorem join_append {ls : List Text} (hne : ls ≠ []) (t : Text) :
    join [newline] (ls ++ [t]) = join [newline] ls ++ newline :: t := by
  obtain ⟨first, more, rfl⟩ := List.exists_cons_of_ne_nil hne
  rw [List.cons_append, join_cons, join_cons, List.flatMap_append, List.append_assoc]
  simp

theorem splitAt_of_not_mem {sep : Glyph} {t : Text} (h : sep ∉ t) : splitAt sep t = [t] := by
  induction t with
  | nil => rfl
  | cons g t ih =>
    have hg : g ≠ sep := fun hg => h (hg ▸ List.mem_cons_self)
    rw [splitAt, if_neg hg, ih fun hmem => h (List.mem_cons_of_mem _ hmem)]

theorem lines_of_no_newline {t : Text} (h : newline ∉ t) : lines t = [t] := splitAt_of_not_mem h

theorem splitAt_ne_nil (sep : Glyph) (t : Text) : splitAt sep t ≠ [] := by
  cases t with
  | nil => exact List.cons_ne_nil _ _
  | cons g t =>
    rw [splitAt]
    split
    · exact List.cons_ne_nil _ _
    · split <;> exact List.cons_ne_nil _ _

theorem splitAt_append (sep : Glyph) (t u : Text) :
    splitAt sep (t ++ sep :: u) = splitAt sep t ++ splitAt sep u := by
  induction t with
  | nil =>
    rw [List.nil_append, splitAt.eq_def]
    exact if_pos rfl
  | cons g t ih =>
    rw [List.cons_append, splitAt, splitAt, ih]
    split
    · rfl
    · obtain ⟨piece, pieces, hsplit⟩ := List.exists_cons_of_ne_nil (splitAt_ne_nil sep t)
      rw [hsplit]
      rfl

theorem lines_append {t : Text} (h : newline ∉ t) (rest : Text) :
    lines (t ++ newline :: rest) = t :: lines rest := by
  rw [lines, splitAt_append, splitAt_of_not_mem h]
  rfl

theorem lines_join {ls : List Text} (hne : ls ≠ []) (h : ∀ t ∈ ls, newline ∉ t) :
    lines (join [newline] ls) = ls := by
  induction ls with
  | nil => exact absurd rfl hne
  | cons t ls ih =>
    obtain ⟨ht, hls⟩ := List.forall_mem_cons.1 h
    cases ls with
    | nil =>
      rw [join_cons, List.flatMap_nil, List.append_nil]
      exact lines_of_no_newline ht
    | cons u us =>
      have hrest := ih (List.cons_ne_nil u us) hls
      rw [join_cons] at hrest ⊢
      rw [List.flatMap_cons, List.cons_append, lines_append ht, hrest]

/-- What holds of a last line, and is handed back over each line before it, holds of all texts. -/
theorem lines_induction {P : Text → Prop} (last : ∀ {t : Text}, newline ∉ t → P t)
    (line : ∀ {t rest : Text}, newline ∉ t → P rest → P (t ++ newline :: rest)) (t : Text) :
    P t :=
  split_induction newline last line t

theorem length_lines (t : Text) : (lines t).length = t.count newline + 1 := by
  induction t using lines_induction with
  | last h => rw [lines_of_no_newline h, List.count_eq_zero.2 h]; rfl
  | line h ih =>
    rw [lines_append h, List.length_cons, ih, List.count_append, List.count_eq_zero.2 h,
      List.count_cons_self]
    omega

theorem oneLine_of_no_newline {t : Text} (h : newline ∉ t) : oneLine t = t := by
  have hsame : ∀ g ∈ t, (if g = newline then .char ' ' else g) = g := by
    intro g hg
    refine if_neg ?_
    rintro rfl
    exact h hg
  exact (List.map_congr_left hsame).trans (List.map_id t)

theorem oneLine_append (t u : Text) : oneLine (t ++ u) = oneLine t ++ oneLine u := List.map_append

theorem oneLine_newline_cons (t : Text) : oneLine (newline :: t) = .char ' ' :: oneLine t := rfl

theorem newline_not_mem_oneLine (t : Text) : newline ∉ oneLine t := by
  intro h
  obtain ⟨g, _, hg⟩ := List.mem_map.1 h
  split at hg
  · cases hg
  · contradiction

/-- The lines of an entry without the blanks at their ends, all on one line. -/
def tidy (entry : Text) : Text := oneLine (join [newline] ((lines entry).map trim))

/-- Of several lines, trimming takes blanks only from the first and the last, unless one of these
is all blank. -/
theorem map_trim_lines_trim {first last : Text} {more : List Text}
    (hfirst : trim first ≠ []) (hlast : trim last ≠ [])
    (hlines : ∀ t ∈ first :: (more ++ [last]), newline ∉ t) :
    (lines (trim (join [newline] (first :: (more ++ [last]))))).map trim =
      (first :: (more ++ [last])).map trim := by
  obtain ⟨w, w₁, hw, hw₁, hf, hfhead, hflast⟩ := trim_split first
  obtain ⟨w₂, w', hw₂, hw', hl, hlhead, hllast⟩ := trim_split last
  have hnil : Blanks [] := nofun
  -- The text without the blanks before the first line and after the last.
  have hcore : join [newline] (first :: (more ++ [last])) =
      w ++ (join [newline] ((trim first ++ w₁) :: (more ++ [w₂ ++ trim last])) ++ w') := by
    rw [join_cons, join_cons]
    calc first ++ (more ++ [last]).flatMap (newline :: ·)
        = (w ++ (trim first ++ w₁)) ++
            (more ++ [w₂ ++ (trim last ++ w')]).flatMap (newline :: ·) := by rw [← hf, ← hl]
      _ = _ := by simp
  have hinner : ∀ t ∈ (trim first ++ w₁) :: (more ++ [w₂ ++ trim last]), newline ∉ t := by
    simp only [List.forall_mem_cons, List.mem_append, List.mem_singleton] at hlines ⊢
    refine ⟨fun hmem => hlines.1 ?_, ?_⟩
    · rw [hf]; exact List.mem_append_right _ (List.mem_append.2 hmem)
    · rintro t (ht | rfl)
      · exact hlines.2 t (.inl ht)
      · intro hmem
        refine hlines.2 last (.inr rfl) ?_
        rw [hl, ← List.append_assoc]
        exact List.mem_append_left _ hmem
  rw [hcore, trim_eq hw hw', lines_join (List.cons_ne_nil _ _) hinner]
  · have hfirst' := trim_eq hnil hw₁ hfirst hfhead hflast
    have hlast' := trim_eq hw₂ hnil hlast hlhead hllast
    rw [List.nil_append] at hfirst'
    rw [List.append_nil] at hlast'
    simp only [List.map_cons, List.map_append, List.map_nil, hfirst', hlast']
  · rw [join_cons]
    simp [hfirst]
  · rw [join_cons]
    obtain ⟨g, rest, hg⟩ := List.exists_cons_of_ne_nil hfirst
    rw [hg] at hfhead ⊢
    exact hfhead
  · rw [join_cons]
    obtain ⟨g, rest, hg⟩ := List.exists_cons_of_ne_nil (List.reverse_ne_nil_iff.2 hlast)
    simp only [List.flatMap_append, List.reverse_append, List.flatMap_cons, List.flatMap_nil,
      List.reverse_cons, hg, List.append_assoc, List.cons_append, List.nil_append] at hllast ⊢
    exact hllast

end Text
end BlockCalc
