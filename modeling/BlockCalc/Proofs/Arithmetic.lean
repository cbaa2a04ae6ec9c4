import BlockCalc.Arith

/-!
# BlockCalc.Proofs.Arithmetic

Checked arithmetic against arithmetic in unbounded integers. Each operation returns the exact
result where that fits in 64 bits and reports an overflow where it does not; only division has
another fault, the divisor zero.

Machine words agree with the exact result up to multiples of `2 ^ 64` (`exists_wraps`). The range
is stated in literals, so that `omega` settles what is linear in that.
-/

namespace BlockCalc

/-- The quotient in unbounded integers. -/
def Division.quotient : Division → Int → Int → Int
  | .truncate => Int.tdiv
  | .floor => Int.fdiv

namespace Arith

/-- The integers from `-2 ^ 63` to `2 ^ 63 - 1`. -/
def Fits (z : Int) : Prop := -9223372036854775808 ≤ z ∧ z ≤ 9223372036854775807

instance : DecidablePred Fits := fun _ => inferInstanceAs (Decidable (_ ∧ _))

/-- The integer `z` as a word, where it fits in one. -/
def exactly (z : Int) : Except ArithError Int64 :=
  if Fits z then .ok (Int64.ofInt z) else .error .overflow

theorem fits_toInt (a : Int64) : Fits a.toInt := by
  have := a.le_toInt
  have := a.toInt_lt
  unfold Fits; omega

theorem Fits.toInt_ofInt {z : Int} (h : Fits z) : (Int64.ofInt z).toInt = z := by
  unfold Fits at h
  exact Int64.toInt_ofInt_of_le (by omega) (by omega)

theorem exactly_of_toInt {z : Int} {r : Int64} (h : r.toInt = z) : exactly z = .ok r := by
  subst h
  rw [exactly, if_pos (fits_toInt r), Int64.ofInt_toInt]

theorem exactly_of_not_fits {z : Int} (h : ¬ Fits z) : exactly z = .error .overflow := if_neg h

theorem exists_wraps {r : Int64} {z : Int} (h : r.toInt = z.bmod Int64.size) :
    ∃ k : Int, z = r.toInt + 18446744073709551616 * k := by
  rw [Int.bmod_def, Int64.size] at h
  split at h
  · exact ⟨z / 18446744073709551616, by omega⟩
  · exact ⟨z / 18446744073709551616 + 1, by omega⟩

theorem add_eq_exactly (a b : Int64) : add a b = exactly (a.toInt + b.toInt) := by
  obtain ⟨k, hk⟩ := exists_wraps (Int64.toInt_add a b)
  have ha := fits_toInt a
  have hb := fits_toInt b
  have hr := fits_toInt (a + b)
  simp only [add, Int64.lt_iff_toInt_lt, Int64.le_iff_toInt_le, Int64.toInt_zero]
  unfold Fits at ha hb hr
  split
  · exact (exactly_of_not_fits (by unfold Fits; omega)).symm
  · exact (exactly_of_toInt (by omega)).symm

theorem sub_eq_exactly (a b : Int64) : sub a b = exactly (a.toInt - b.toInt) := by
  obtain ⟨k, hk⟩ := exists_wraps (Int64.toInt_sub a b)
  have ha := fits_toInt a
  have hb := fits_toInt b
  have hr := fits_toInt (a - b)
  simp only [sub, Int64.lt_iff_toInt_lt, Int64.le_iff_toInt_le, Int64.toInt_zero]
  unfold Fits at ha hb hr
  split
  · exact (exactly_of_not_fits (by unfold Fits; omega)).symm
  · exact (exactly_of_toInt (by omega)).symm

theorem neg_eq_exactly (a : Int64) : neg a = exactly (-a.toInt) := by
  obtain ⟨k, hk⟩ := exists_wraps (Int64.toInt_neg a)
  have ha := fits_toInt a
  have hr := fits_toInt (-a)
  simp only [neg, ← Int64.toInt_inj, Int64.toInt_minValue]
  unfold Fits at ha hr
  split
  · exact (exactly_of_not_fits (by unfold Fits; omega)).symm
  · exact (exactly_of_toInt (by omega)).symm

/-! ## Quotients -/

/-- The only quotient of words that does not fit is that of the least word by `-1`. -/
theorem toInt_div {a b : Int64} (h : ¬ (a = Int64.minValue ∧ b = -1)) :
    (a / b).toInt = a.toInt.tdiv b.toInt := by
  by_cases hb : b = -1
  · exact Int64.toInt_div_of_ne_left a b fun ha => h ⟨ha, hb⟩
  · exact Int64.toInt_div_of_ne_right a b hb

/-- A divisor that leaves a remainder at least halves. -/
theorem natAbs_tdiv_le_half {a b : Int} (h : a.tmod b ≠ 0) :
    (a.tdiv b).natAbs ≤ a.natAbs / 2 ∨ b = 0 := by
  by_cases hb : b.natAbs ≤ 1
  · have : b = 0 ∨ b = 1 ∨ b = -1 := by omega
    rcases this with rfl | rfl | rfl
    · exact .inr rfl
    · simp at h
    · simp at h
  · refine .inl ?_
    rw [Int.natAbs_tdiv]
    exact Nat.div_le_div_left (by omega) (by decide)

/-- Rounding down takes one from a quotient that is rounded up, which is one of operands with
different signs. -/
theorem fdiv_eq_tdiv_sub {a b : Int} (hb : b ≠ 0) :
    a.fdiv b = a.tdiv b - if a.tmod b ≠ 0 ∧ decide (a < 0) ≠ decide (b < 0) then 1 else 0 := by
  have hpos : 0 ≤ b → b.sign = 1 := fun h => Int.sign_eq_one_of_pos (by omega)
  have hneg : ¬ 0 ≤ b → b.sign = -1 := fun h => Int.sign_eq_neg_one_of_neg (by omega)
  rw [Int.fdiv_eq_tdiv]
  simp only [Int.dvd_iff_tmod_eq_zero]
  grind

/-- A quotient that is rounded down still fits, for a divisor that leaves a remainder at least
halves. -/
theorem div_eq_exactly (mode : Division) {a b : Int64} (hb : b.toInt ≠ 0) :
    div mode a b = exactly (mode.quotient a.toInt b.toInt) := by
  have hb' : b ≠ 0 := fun h => hb (by rw [h]; rfl)
  rw [div, if_neg hb']
  split
  · rename_i h
    obtain ⟨rfl, rfl⟩ := h
    cases mode <;> exact (exactly_of_not_fits (by decide)).symm
  · rename_i h
    have hq := toInt_div h
    simp only [ne_eq, ← Int64.toInt_inj, Int64.toInt_mod, Int64.lt_iff_toInt_lt,
      Int64.toInt_zero]
    cases mode with
    | truncate => simpa [Division.quotient] using (exactly_of_toInt hq).symm
    | floor =>
      rw [Division.quotient, fdiv_eq_tdiv_sub hb]
      simp only [true_and]
      split
      · rename_i hround
        obtain ⟨k, hk⟩ := exists_wraps (Int64.toInt_sub (a / b) 1)
        have hhalf := natAbs_tdiv_le_half hround.1
        have ha := fits_toInt a
        have hr := fits_toInt (a / b - 1)
        rw [hq, Int64.toInt_one] at hk
        unfold Fits at ha hr
        exact (exactly_of_toInt (by omega)).symm
      · exact (exactly_of_toInt (by omega)).symm

theorem div_zero (mode : Division) {a b : Int64} (hb : b.toInt = 0) :
    div mode a b = .error .divisionByZero := if_pos (Int64.toInt_inj.1 hb)

/-! ## Products -/

/-- Dividing the wrapped product by a factor gives the other factor only where nothing was
wrapped: a multiple of `2 ^ 64` is no remainder of a division by a word. -/
theorem toInt_mul_of_div_eq {a b : Int64} (hb : b.toInt ≠ 0)
    (hmin : ¬ (b = -1 ∧ a = Int64.minValue)) (h : a * b / b = a) :
    (a * b).toInt = a.toInt * b.toInt := by
  by_cases hx : a * b = Int64.minValue ∧ b = -1
  · rw [hx.1, hx.2] at h
    exact absurd ⟨hx.2, h ▸ by decide⟩ hmin
  · have hq := toInt_div hx
    rw [h] at hq
    obtain ⟨k, hk⟩ := exists_wraps (Int64.toInt_mul a b)
    have hdiv := Int.mul_tdiv_add_tmod (a * b).toInt b.toInt
    rw [← hq, Int.mul_comm] at hdiv
    have hrem : ((a * b).toInt.tmod b.toInt).natAbs < b.toInt.natAbs := by
      rw [Int.natAbs_tmod]
      exact Nat.mod_lt _ (by omega)
    have := fits_toInt b
    unfold Fits at this
    omega

theorem mul_div_eq {a b : Int64} (hb : b.toInt ≠ 0) (h : (a * b).toInt = a.toInt * b.toInt) :
    a * b / b = a := by
  have hx : ¬ (a * b = Int64.minValue ∧ b = -1) := by
    rintro ⟨hr, rfl⟩
    have ha := fits_toInt a
    rw [hr] at h
    have hone : (-1 : Int64).toInt = -1 := rfl
    rw [Int64.toInt_minValue, hone] at h
    unfold Fits at ha
    omega
  rw [← Int64.toInt_inj, toInt_div hx, h, Int.mul_tdiv_cancel _ hb]

theorem mul_eq_exactly (a b : Int64) : mul a b = exactly (a.toInt * b.toInt) := by
  rw [mul]
  split
  · rename_i h
    refine (exactly_of_toInt ?_).symm
    rcases h with rfl | rfl <;> simp
  · rename_i hzero
    split
    · rename_i h
      refine (exactly_of_not_fits ?_).symm
      rcases h with ⟨rfl, rfl⟩ | ⟨rfl, rfl⟩ <;> decide
    · rename_i hmin
      have hb : b.toInt ≠ 0 := fun h => hzero (.inr (Int64.toInt_inj.1 h))
      dsimp only
      split
      · rename_i h
        exact (exactly_of_toInt (toInt_mul_of_div_eq hb (fun h => hmin (.inr h)) h)).symm
      · rename_i h
        refine (exactly_of_not_fits fun hfits => h (mul_div_eq hb ?_)).symm
        obtain ⟨k, hk⟩ := exists_wraps (Int64.toInt_mul a b)
        have hr := fits_toInt (a * b)
        unfold Fits at hfits hr
        omega

end Arith
end BlockCalc
