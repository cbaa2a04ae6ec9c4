import BlockCalc.Proofs.ScreenTexts

/-!
# BlockCalc.Proofs.Recall

Going through the recallable entries with the up and down keys. A press moves by one entry
(`StandsAt.up`, `StandsAt.down`) and shows as much of it as the field holds, so presses move by
their number. The lines of an entry have to fit in the field, the entry has not: one that is longer
than the field comes back without its end.
-/

namespace BlockCalc
namespace Screen

/-- The key pressed `n` times. -/
def presses (k : Key) (n : Nat) : List Message := List.replicate n (.key k)

/-- The screen shows the entry with the number `i`, as much of it as the field holds. -/
structure StandsAt (s : Screen) (entries : List Text) (i : Nat) : Prop where
  tidy : s.Tidy
  recallable : s.recallable = entries
  recalled : s.recalled = some i
  value : s.value = (entries.getD i []).take Field.capacity

/-- The screen has gone past the last entry, to the empty line. -/
structure StandsPast (s : Screen) (entries : List Text) : Prop where
  recallable : s.recallable = entries
  recalled : s.recalled = none
  value : s.value = []

section

variable {s : Screen} {entries : List Text} {i : Nat}

/-! ## One press -/

theorem Tidy.standsAt_recallEntry (h : s.Tidy) (i : Nat) :
    (s.recallEntry i).StandsAt s.recallable i where
  tidy := h.recallEntry i
  recallable := rfl
  recalled := rfl
  value := by
    have hentry : ∀ g ∈ s.recallable.getD i [], g.Showable := by
      rw [List.getD_eq_getElem?_getD]
      cases ht : s.recallable[i]? with
      | none => exact fun g hg => absurd hg List.not_mem_nil
      | some t => exact h.recallable t (List.mem_of_getElem? ht)
    rw [Screen.value, Screen.recallEntry, Field.moveToEnd, Field.value_moveTo, Field.value_set,
      List.map_take, Field.map_char_sanitize hentry]

theorem Tidy.up (h : s.Tidy) (hnone : s.recalled = none) (hne : 1 ≤ s.recallable.length) :
    (s.receive (.key .up)).StandsAt s.recallable (s.recallable.length - 1) := by
  obtain ⟨n, hn⟩ : ∃ n, s.recallable.length = n + 1 := ⟨s.recallable.length - 1, by omega⟩
  have hup : s.receive (.key .up) = s.recallEntry n := by
    rw [Screen.receive, press, Screen.recallPrevious, hn, hnone]
  rw [hup, hn]
  exact h.standsAt_recallEntry n

theorem StandsAt.up (h : s.StandsAt entries i) (hne : 1 ≤ entries.length) :
    (s.receive (.key .up)).StandsAt entries (i - 1) := by
  obtain ⟨n, hn⟩ : ∃ n, entries.length = n + 1 := ⟨entries.length - 1, by omega⟩
  have hup : s.receive (.key .up) = s.recallEntry (i - 1) := by
    rw [receive, press, recallPrevious, h.recallable, hn, h.recalled]
  rw [hup, ← h.recallable]
  exact h.tidy.standsAt_recallEntry _

theorem StandsAt.down (h : s.StandsAt entries i) (hi : i + 1 < entries.length) :
    (s.receive (.key .down)).StandsAt entries (i + 1) := by
  have hdown : s.receive (.key .down) = s.recallEntry (i + 1) := by
    rw [receive, press, recallNext, h.recalled]
    exact if_pos (h.recallable ▸ hi)
  rw [hdown, ← h.recallable]
  exact h.tidy.standsAt_recallEntry _

theorem StandsAt.down_last (h : s.StandsAt entries i) (hi : entries.length ≤ i + 1) :
    (s.receive (.key .down)).StandsPast entries := by
  have hdown : s.receive (.key .down) =
      { s with recalled := none, field := (s.field.set []).moveToEnd } := by
    rw [receive, press, recallNext, h.recalled]
    exact if_neg (Nat.not_lt.2 (h.recallable ▸ hi))
  rw [hdown]
  refine ⟨h.recallable, rfl, ?_⟩
  rw [Screen.value, Field.moveToEnd, Field.value_moveTo, Field.value_set]
  rfl

theorem StandsPast.down (h : s.StandsPast entries) :
    (s.receive (.key .down)).StandsPast entries := by
  have hdown : s.receive (.key .down) = s := by rw [receive, press, recallNext, h.recalled]
  rw [hdown]
  exact h

/-! ## Any number of presses -/

theorem StandsAt.ups (hne : 1 ≤ entries.length) (k : Nat) : ∀ {s : Screen} {i : Nat},
    s.StandsAt entries i → (s.receiveAll (presses .up k)).StandsAt entries (i - k) := by
  induction k with
  | zero => exact id
  | succ k ih =>
    intro s i h
    have hrest := ih (h.up hne)
    rwa [Nat.sub_sub, Nat.add_comm 1 k] at hrest

/-- The presses from outside the entries: the first of them goes to the last entry. -/
theorem Tidy.ups (h : s.Tidy) (hnone : s.recalled = none) (hne : 1 ≤ s.recallable.length) {k : Nat}
    (hk : 1 ≤ k) : (s.receiveAll (presses .up k)).StandsAt s.recallable
      (s.recallable.length - min k s.recallable.length) := by
  obtain ⟨k, rfl⟩ : ∃ m, k = m + 1 := ⟨k - 1, by omega⟩
  have hups := (h.up hnone hne).ups hne k
  have hplace : s.recallable.length - 1 - k =
      s.recallable.length - min (k + 1) s.recallable.length := by omega
  rwa [hplace] at hups

theorem StandsPast.downs (j : Nat) : ∀ {s : Screen}, s.StandsPast entries →
    (s.receiveAll (presses .down j)).StandsPast entries := by
  induction j with
  | zero => exact id
  | succ j ih => exact fun h => ih h.down

theorem StandsAt.downs (j : Nat) : ∀ {s : Screen} {i : Nat}, s.StandsAt entries i →
    i < entries.length →
      (i + j < entries.length → (s.receiveAll (presses .down j)).StandsAt entries (i + j)) ∧
      (entries.length ≤ i + j → (s.receiveAll (presses .down j)).StandsPast entries) := by
  induction j with
  | zero => exact fun h hi => ⟨fun _ => h, fun hpast => absurd hi (Nat.not_lt.2 hpast)⟩
  | succ j ih =>
    intro s i h hi
    by_cases hlast : entries.length ≤ i + 1
    · exact ⟨fun hbefore => absurd hbefore (by omega), fun _ => (h.down_last hlast).downs j⟩
    · have hnext := ih (h.down (Nat.not_le.1 hlast)) (Nat.not_le.1 hlast)
      rwa [Nat.add_right_comm i 1 j] at hnext

theorem StandsAt.exists_entry (h : s.StandsAt entries i) (hi : i < entries.length) :
    ∃ t, entries[i]? = some t ∧ s.value = t.take Field.capacity ∧
      (s.value = t ↔ t.length ≤ Field.capacity) := by
  have hvalue : s.value = entries[i].take Field.capacity := by
    rw [h.value, List.getD_eq_getElem?_getD, List.getElem?_eq_getElem hi, Option.getD_some]
  refine ⟨entries[i], List.getElem?_eq_getElem hi, hvalue, ?_⟩
  rw [hvalue]
  constructor
  · intro hwhole
    have hlength := congrArg List.length hwhole
    rw [List.length_take] at hlength
    omega
  · exact List.take_of_length_le

end

/-- Presses of the up key go back by as many entries as there are presses, at most to the first;
presses of the down key go forward again, and past the last entry to the empty line. The entries
stay what they are. Each is shown as far as the field holds it, so it comes back as it was recorded
exactly if it has at most 500 characters. -/
theorem recall_by_presses (e : Engine) (prompt : Text) (ms : List Message) (k j : Nat)
    (hnone : ((start e prompt).receiveAll ms).recalled = none)
    (hne : 1 ≤ ((start e prompt).receiveAll ms).recallable.length) (hk : 1 ≤ k) :
    let s := (start e prompt).receiveAll ms
    let n := s.recallable.length
    let i := n - min k n
    let up := s.receiveAll (presses .up k)
    let down := up.receiveAll (presses .down j)
    up.recallable = s.recallable ∧ down.recallable = s.recallable ∧
    (∃ t, s.recallable[i]? = some t ∧ up.value = t.take 500 ∧
      (up.value = t ↔ t.length ≤ 500)) ∧
    (i + j < n → down.recalled = some (i + j) ∧ ∃ t, s.recallable[i + j]? = some t ∧
      down.value = t.take 500 ∧ (down.value = t ↔ t.length ≤ 500)) ∧
    (n ≤ i + j → down.recalled = none ∧ down.value = []) := by
  intro s n i up down
  have hi : i < n := Nat.sub_lt hne (Nat.lt_min.2 ⟨hk, hne⟩)
  have hup : up.StandsAt s.recallable i := ((tidy_start e prompt).receiveAll ms).ups hnone hne hk
  obtain ⟨hbefore, hpast⟩ := hup.downs j hi
  have hkept : down.recallable = s.recallable := by
    rcases Nat.lt_or_ge (i + j) n with h | h
    · exact (hbefore h).recallable
    · exact (hpast h).recallable
  exact ⟨hup.recallable, hkept, hup.exists_entry hi,
    fun h => ⟨(hbefore h).recalled, (hbefore h).exists_entry h⟩,
    fun h => ⟨(hpast h).recalled, (hpast h).value⟩⟩

/-- Three lines that make one entry, and then one line that is an entry. -/
def longThenShort : List Message :=
  [.value (Text.ofString "BEGIN"), .key .enter, .value (List.replicate 495 (.char 'a')),
    .key .enter, .value (Text.ofString ":= 1 END."), .key .enter,
    .value (Text.ofString "2 + 3"), .key .enter]

/-- The entry that the three lines make, of 511 characters. -/
def longEntry : Text :=
  Text.ofString "BEGIN " ++ List.replicate 495 (.char 'a') ++ Text.ofString " := 1 END."

/-- Of the first entry, which is longer than the field, the end is missing; the second comes back
whole. -/
theorem recall_by_presses_long :
    let s := (start ⟨256, .truncate⟩ []).receiveAll longThenShort
    let up := s.receiveAll (presses .up 3)
    let down := up.receiveAll (presses .down 1)
    s.recalled = none ∧ 1 ≤ s.recallable.length ∧ 1 ≤ 3 ∧
      s.recallable = [longEntry, Text.ofString "2 + 3"] ∧ up.value = longEntry.take 500 ∧
      up.value ≠ longEntry ∧ down.recalled = some 1 ∧ down.value = Text.ofString "2 + 3" := by
  intro s up down
  have hstate : s.recalled = none ∧ s.recallable = [longEntry, Text.ofString "2 + 3"] := by
    decide +kernel
  obtain ⟨hnone, hrecallable⟩ := hstate
  have hne : 1 ≤ s.recallable.length := by rw [hrecallable]; decide
  obtain ⟨_, _, ⟨t, ht, hvalue, hwhole⟩, hdown, _⟩ :=
    recall_by_presses ⟨256, .truncate⟩ [] longThenShort 3 1 hnone hne (by decide)
  have hplace : s.recallable.length - min 3 s.recallable.length = 0 := by rw [hrecallable]; rfl
  rw [hplace, hrecallable] at ht
  rw [hplace] at hdown
  obtain ⟨hrecalled, u, hu, hshown, _⟩ := hdown (by rw [hrecallable]; decide)
  rw [hrecallable] at hu
  cases ht
  cases hu
  have hlong : ¬ longEntry.length ≤ 500 := by decide +kernel
  exact ⟨hnone, hne, by decide, hrecallable, hvalue, fun h => hlong (hwhole.1 h), hrecalled,
    hshown⟩

/-- An entry of several lines is not shown as it was recorded: two presses go to the first of two
entries, and the field has lost its end. -/
theorem recall_loses_end :
    let s := (start ⟨256, .truncate⟩ []).receiveAll longThenShort
    s.recalled = none ∧ 1 ≤ s.recallable.length ∧
      s.recallable[s.recallable.length - min 2 s.recallable.length]? = some longEntry ∧
      (s.receiveAll (presses .up 2)).value ≠ longEntry := by
  decide +kernel

end Screen
end BlockCalc
