/-!
# BlockCalc.Proofs.Lists

Facts about lists in general: lists that are split at a value, sorting of lists that are partly in
order, lists without repetition, and looking up keys where some were taken out.
-/

namespace BlockCalc

/-- What holds of a list without `sep`, and is handed back over each `sep`, holds of all lists. -/
theorem split_induction {α : Type} [DecidableEq α] (sep : α) {P : List α → Prop}
    (last : ∀ {xs : List α}, sep ∉ xs → P xs)
    (line : ∀ {xs rest : List α}, sep ∉ xs → P rest → P (xs ++ sep :: rest)) (xs : List α) :
    P xs := by
  induction hn : xs.length using Nat.strongRecOn generalizing xs with
  | ind n ih =>
    by_cases hmem : sep ∈ xs
    · obtain ⟨first, rest, rfl, hfirst⟩ := List.eq_append_cons_of_mem hmem
      rw [List.length_append, List.length_cons] at hn
      exact line hfirst (ih rest.length (by omega) rest rfl)
    · exact last hmem

/-- Sorting keeps members that are in order as they are. -/
theorem filter_mergeSort {α : Type} {le : α → α → Bool} {p : α → Bool} {l : List α}
    (htrans : ∀ a b c, le a b = true → le b c = true → le a c = true)
    (htotal : ∀ a b, (le a b || le b a) = true) (h : (l.filter p).Pairwise (le · ·)) :
    (l.mergeSort le).filter p = l.filter p := by
  have hsub := (List.sublist_mergeSort htrans htotal h List.filter_sublist).filter p
  rw [List.filter_filter] at hsub
  simp only [Bool.and_self] at hsub
  exact (hsub.eq_of_length ((List.mergeSort_perm l le).filter p).length_eq.symm).symm

/-- Nothing is left twice. What follows the first member has lost all that are equal to it. -/
theorem nodup_eraseDups {α : Type} [BEq α] [LawfulBEq α] (l : List α) : l.eraseDups.Nodup := by
  induction hn : l.length using Nat.strongRecOn generalizing l with
  | ind n ih =>
    cases l with
    | nil => exact List.nodup_nil
    | cons a l =>
      have hlength := List.length_filter_le (fun b => !b == a) l
      rw [List.length_cons] at hn
      rw [List.eraseDups_cons]
      refine List.nodup_cons.2 ⟨fun hmem => ?_, ih _ (by omega) _ rfl⟩
      have hne := (List.mem_filter.1 (List.mem_eraseDups.1 hmem)).2
      simp at hne

/-- Where a key was taken out it is not found, and all others are found as before. -/
theorem lookup_filter_ne {α β : Type} [BEq α] [LawfulBEq α] [DecidableEq α] (x y : α)
    (l : List (α × β)) :
    (l.filter (·.1 != y)).lookup x = if x = y then none else l.lookup x := by
  induction l with
  | nil => simp
  | cons b l ih =>
    obtain ⟨z, q⟩ := b
    by_cases hz : z = y
    · subst hz
      rw [List.filter_cons_of_neg (by simp), ih, List.lookup_cons]
      by_cases hx : x = z
      · rw [if_pos hx, if_pos hx]
      · rw [if_neg hx, if_neg hx, beq_false_of_ne hx]
    · rw [List.filter_cons_of_pos (by simpa using hz), List.lookup_cons, List.lookup_cons, ih]
      by_cases hx : x = z
      · subst hx; simp [hz]
      · simp [beq_false_of_ne hx]

end BlockCalc
