import Mathlib.Data.Rat.Floor
import BlockCalc.Proofs.Arithmetic

/-!
# BlockCalc.Proofs.Rounding

Checked arithmetic as a whole, with division stated by the rational quotient: the answer is that
quotient rounded toward zero or down (`Division.round`), and the only one that has no room in a
word is `2 ^ 63`. Rounding down takes one from a quotient that is smaller than its dividend, so it
never leaves the range (`pred_of_floor`).
-/

namespace BlockCalc
namespace Division

/-- The integer a rational number is rounded to. -/
def round : Division → ℚ → Int
  | .truncate, x => if 0 ≤ x then ⌊x⌋ else ⌈x⌉
  | .floor, x => ⌊x⌋

/-- A quotient is one by a natural number, if need be after both signs are changed. -/
theorem exists_natCast_div (a b : Int) : ∃ (c : Int) (n : Nat),
    (a : ℚ) / b = (c : ℚ) / n ∧ a.fdiv b = c.fdiv n ∧ a.tdiv b = c.tdiv n := by
  obtain ⟨n, rfl | rfl⟩ := b.eq_nat_or_neg
  · exact ⟨a, n, by rw [Int.cast_natCast], rfl, rfl⟩
  · refine ⟨-a, n, ?_, ?_, ?_⟩
    · rw [Int.cast_neg, Int.cast_neg, Int.cast_natCast, div_neg, neg_div]
    · rw [← Int.neg_fdiv_neg, neg_neg]
    · rw [← Int.neg_tdiv_neg, neg_neg]

theorem floor_div (a b : Int) : ⌊(a : ℚ) / b⌋ = a.fdiv b := by
  obtain ⟨c, n, hratio, hfdiv, -⟩ := exists_natCast_div a b
  rw [hratio, hfdiv, Rat.floor_intCast_div_natCast,
    Int.fdiv_eq_ediv_of_nonneg c (Int.natCast_nonneg n)]

/-- A quotient below zero is minus the quotient of the opposite dividend, and that one is rounded
down. -/
theorem truncate_div (a b : Int) : Division.truncate.round ((a : ℚ) / b) = a.tdiv b := by
  obtain ⟨c, n, hratio, -, htdiv⟩ := exists_natCast_div a b
  have hdown : ∀ c : Int, 0 ≤ c → ⌊(c : ℚ) / n⌋ = c.tdiv n := fun c hc => by
    rw [Rat.floor_intCast_div_natCast, Int.tdiv_eq_ediv_of_nonneg hc]
  rw [hratio, htdiv]
  obtain rfl | hn := n.eq_zero_or_pos
  · simp [round]
  · have hsign : 0 ≤ (c : ℚ) / n ↔ 0 ≤ c := by
      rw [le_div_iff₀ (Nat.cast_pos.2 hn), zero_mul, Int.cast_nonneg_iff]
    rw [round]
    split
    · rename_i h
      exact hdown c (hsign.1 h)
    · rename_i h
      rw [hsign] at h
      have hminus := hdown (-c) (by omega)
      rw [Int.cast_neg, neg_div, Int.floor_neg, Int.neg_tdiv] at hminus
      exact neg_injective hminus

theorem round_div (mode : Division) (a b : Int) :
    mode.round ((a : ℚ) / b) = mode.quotient a b := by
  cases mode with
  | truncate => exact truncate_div a b
  | floor => exact floor_div a b

theorem round_ofName (name : String) (x : ℚ) :
    (Division.ofName name).round x =
      if name = "floor" then ⌊x⌋ else if 0 ≤ x then ⌊x⌋ else ⌈x⌉ := by
  have hname : Division.floor.name = "floor" := rfl
  rw [ofName, hname]
  by_cases h : name = "floor"
  · rw [if_pos h, if_pos h, round]
  · rw [if_neg h, if_neg h, round]

end Division

namespace Arith

/-- The answer is the integer `z` where that fits in a word, and an overflow where it does not. -/
structure Exact (answer : Except ArithError Int64) (z : Int) : Prop where
  value : ∀ v, answer = .ok v ↔ v.toInt = z
  fault : ∀ e, answer = .error e ↔ e = .overflow ∧ ¬ Fits z

theorem exact_exactly (z : Int) : Exact (exactly z) z := by
  by_cases hz : Fits z
  · refine ⟨fun v => ⟨?_, exactly_of_toInt⟩, fun e => ?_⟩
    · rw [exactly, if_pos hz]
      rintro ⟨⟩
      exact hz.toInt_ofInt
    · simp [exactly, hz]
  · rw [exactly_of_not_fits hz]
    refine ⟨fun v => ⟨?_, ?_⟩, fun e => ?_⟩
    · rintro ⟨⟩
    · rintro rfl
      exact absurd (fits_toInt v) hz
    · simp [hz, eq_comm]

/-! ## Quotients -/

/-- The exact quotient of two words. -/
def ratio (a b : Int64) : ℚ := (a.toInt : ℚ) / b.toInt

variable (mode : Division) {a b : Int64}

/-- The two faults of division, each with the only operands that have it. -/
theorem div_cases (a b : Int64) :
    (b = 0 ∧ div mode a b = .error .divisionByZero) ∨
      ((a = Int64.minValue ∧ b = -1) ∧ div mode a b = .error .overflow) ∨
      (b ≠ 0 ∧ ¬ (a = Int64.minValue ∧ b = -1) ∧ ∃ v, div mode a b = .ok v) := by
  unfold div
  split
  · rename_i hb
    exact .inl ⟨hb, rfl⟩
  · rename_i hb
    split
    · rename_i h
      exact .inr (.inl ⟨h, rfl⟩)
    · rename_i h
      refine .inr (.inr ⟨hb, h, ?_⟩)
      dsimp only
      split <;> exact ⟨_, rfl⟩

theorem div_eq_divisionByZero_iff : div mode a b = .error .divisionByZero ↔ b = 0 := by
  obtain ⟨hb, h⟩ | ⟨⟨-, hb⟩, h⟩ | ⟨hb, -, v, h⟩ := div_cases mode a b
  · rw [h]; simp [hb]
  · rw [h]; simp [hb]
  · rw [h]; simp [hb]

theorem div_eq_overflow_iff :
    div mode a b = .error .overflow ↔ a = Int64.minValue ∧ b = -1 := by
  obtain ⟨hb, h⟩ | ⟨hmin, h⟩ | ⟨-, hmin, v, h⟩ := div_cases mode a b
  · rw [h]; simp [hb]
  · rw [h]; simp [hmin]
  · rw [h]; simp [hmin]

/-- Of the words that are not zero only `-1`, times `2 ^ 63`, is a word again. -/
theorem ratio_eq_bound_iff :
    ratio a b = 9223372036854775808 ↔ a = Int64.minValue ∧ b = -1 := by
  unfold ratio
  constructor
  · intro h
    have hb : (b.toInt : ℚ) ≠ 0 := by
      intro hb
      simp [hb] at h
    have hmul : a.toInt = 9223372036854775808 * b.toInt := by
      exact_mod_cast (div_eq_iff hb).1 h
    have hb' : b.toInt ≠ 0 := by exact_mod_cast hb
    have ha := fits_toInt a
    unfold Fits at ha
    have hone : b.toInt = -1 := by omega
    rw [hone] at hmul
    exact ⟨Int64.toInt_inj.1 hmul, Int64.toInt_inj.1 hone⟩
  · rintro ⟨rfl, rfl⟩
    have hone : (-1 : Int64).toInt = -1 := rfl
    rw [hone, Int64.toInt_minValue]
    norm_num

theorem div_eq_ok_iff (v : Int64) :
    div mode a b = .ok v ↔ b ≠ 0 ∧ v.toInt = mode.round (ratio a b) := by
  by_cases hb : b = 0
  · rw [(div_eq_divisionByZero_iff mode).2 hb]
    simp [hb]
  · have hb' : b.toInt ≠ 0 := fun h => hb (Int64.toInt_inj.1 h)
    rw [div_eq_exactly mode hb', ratio, mode.round_div, (exact_exactly _).value, and_iff_right hb]

theorem exists_div_iff :
    (∃ v, div mode a b = .ok v) ↔ b ≠ 0 ∧ ¬ (a = Int64.minValue ∧ b = -1) := by
  obtain ⟨hb, h⟩ | ⟨hmin, h⟩ | ⟨hb, hmin, hok⟩ := div_cases mode a b
  · rw [h]; simp [hb]
  · rw [h]; simp [hmin]
  · exact iff_of_true hok ⟨hb, hmin⟩

/-- Where truncation does not round down, rounding down gives the integer before, which still
fits. -/
theorem pred_of_floor {q : Int64} (hq : div .truncate a b = .ok q)
    (hne : q.toInt ≠ ⌊ratio a b⌋) :
    div .floor a b = .ok (q - 1) ∧ (q - 1).toInt = q.toInt - 1 := by
  obtain ⟨r, hr⟩ : ∃ r, div .floor a b = .ok r :=
    (exists_div_iff .floor).2 ((exists_div_iff .truncate).1 ⟨q, hq⟩)
  obtain ⟨hb, hzero⟩ := (div_eq_ok_iff .truncate q).1 hq
  obtain ⟨-, hdown⟩ := (div_eq_ok_iff .floor r).1 hr
  rw [ratio, Division.truncate_div] at hzero
  rw [ratio, Division.round, Division.floor_div] at hdown
  rw [ratio, Division.floor_div] at hne
  have hpred : r.toInt = q.toInt - 1 := by
    have hround : a.toInt.fdiv b.toInt = _ := fdiv_eq_tdiv_sub fun h => hb (Int64.toInt_inj.1 h)
    split at hround <;> omega
  have hword : r = q - 1 := by
    obtain ⟨k, hk⟩ := exists_wraps (Int64.toInt_sub q 1)
    have hr := fits_toInt r
    have hq := fits_toInt (q - 1)
    rw [Int64.toInt_one] at hk
    unfold Fits at hr hq
    exact Int64.toInt_inj.1 (by omega)
  exact ⟨by rw [hr, hword], by rw [← hword, hpred]⟩

/-- The word with the exact result, or the reason why there is none. -/
theorem results_exact (name : String) (a b : Int64) :
    Exact (add a b) (a.toInt + b.toInt) ∧ Exact (sub a b) (a.toInt - b.toInt) ∧
    Exact (mul a b) (a.toInt * b.toInt) ∧ Exact (neg a) (-a.toInt) ∧
    (div (.ofName name) a b = .error .divisionByZero ↔ b = 0) ∧
    (div (.ofName name) a b = .error .overflow ↔ ratio a b = 9223372036854775808) ∧
    (∀ v, div (.ofName name) a b = .ok v ↔ b ≠ 0 ∧ v.toInt =
      if name = "floor" then ⌊ratio a b⌋
      else if 0 ≤ ratio a b then ⌊ratio a b⌋ else ⌈ratio a b⌉) ∧
    ∀ q, div .truncate a b = .ok q → q.toInt ≠ ⌊ratio a b⌋ →
      div .floor a b = .ok (q - 1) ∧ (q - 1).toInt = q.toInt - 1 := by
  refine ⟨?_, ?_, ?_, ?_, div_eq_divisionByZero_iff _, ?_, fun v => ?_, fun q => pred_of_floor⟩
  · exact add_eq_exactly a b ▸ exact_exactly _
  · exact sub_eq_exactly a b ▸ exact_exactly _
  · exact mul_eq_exactly a b ▸ exact_exactly _
  · exact neg_eq_exactly a ▸ exact_exactly _
  · rw [div_eq_overflow_iff, ratio_eq_bound_iff]
  · rw [div_eq_ok_iff, Division.round_ofName]

/-- From `-3.5` up to `-3`, and down from there to `-4`. -/
theorem results_exact_minus_seven :
    div .truncate (-7) 2 = .ok (-3) ∧ div .floor (-7) 2 = .ok (-3 - 1) ∧
      (-3 - 1 : Int64).toInt = (-3 : Int64).toInt - 1 := by
  have hzero : div .truncate (-7) 2 = .ok (-3) := rfl
  have hratio : ratio (-7) 2 = ((-7 : Int) : ℚ) / (2 : Int) := rfl
  have hthree : (-3 : Int64).toInt = -3 := rfl
  obtain ⟨-, -, -, -, -, -, -, hpred⟩ := results_exact "floor" (-7) 2
  refine ⟨hzero, hpred (-3) hzero fun h => ?_⟩
  have hle := (Int.floor_eq_iff.1 h.symm).1
  rw [hratio, hthree] at hle
  norm_num at hle

end Arith
end BlockCalc
