import Mathlib.Algebra.Order.Field.Power
import Mathlib.Tactic.FieldSimp
import Mathlib.Tactic.Linarith
import Mathlib.Tactic.NormNum
import Mathlib.Tactic.Positivity
import Mathlib.Tactic.Ring
import TypedScheme.Number.Shortest

/-! Rounding to the nearest number.
Main statement: a quotient in the neighbourhood of a finite number rounds to that number.
-/

namespace TypedScheme

namespace Number

-----------------------------------------------------------------------------------------
-- Quotients of naturals as rationals
-----------------------------------------------------------------------------------------

/-- A quotient keeps a positive denominator when it is divided by a power of two. -/
theorem shiftRatio_pos {den : Nat} (pos : 0 < den) (num : Nat) (power : Int)
    : 0 < (shiftRatio num den power).2 := by
  rw [shiftRatio]
  split
  · rw [Nat.shiftLeft_eq]
    positivity
  · exact pos

/-- The value of the quotient is the one divided by the power of two. -/
theorem shiftRatio_value (num den : Nat) (power : Int)
    : ((shiftRatio num den power).1 : ℚ) / (shiftRatio num den power).2
      = num / den / 2 ^ power := by
  rw [shiftRatio]
  split
  · next nonneg =>
      obtain ⟨k, rfl⟩ := Int.eq_ofNat_of_zero_le nonneg
      rw [Int.toNat_natCast, Nat.shiftLeft_eq, zpow_natCast]
      push_cast
      rw [div_div]
  · next negative =>
      obtain ⟨k, same⟩ := Int.eq_ofNat_of_zero_le (show 0 ≤ -power by omega)
      have power_eq : power = -(k : Int) := by omega
      rw [same, Int.toNat_natCast, Nat.shiftLeft_eq, power_eq, zpow_neg, zpow_natCast]
      push_cast
      rw [div_inv_eq_mul, div_mul_eq_mul_div]

/-- The binary logarithm brackets a positive natural, also as a rational. -/
theorem zpow_log2_bounds {n : Nat} (pos : 0 < n)
    : (2 : ℚ) ^ (n.log2 : Int) ≤ n ∧ (n : ℚ) < 2 ^ ((n.log2 : Int) + 1) := by
  have below : 2 ^ n.log2 ≤ n := Nat.log2_self_le (Nat.ne_of_gt pos)
  have above : n < 2 ^ (n.log2 + 1) := Nat.lt_log2_self
  refine ⟨?_, ?_⟩
  · rw [zpow_natCast]
    exact_mod_cast below
  · rw [show (n.log2 : Int) + 1 = ((n.log2 + 1 : Nat) : Int) by push_cast; rfl, zpow_natCast]
    exact_mod_cast above

/-- The quotient lies between two powers of two that follow each other. -/
theorem floorLog2_spec {num den : Nat} (posNum : 0 < num) (posDen : 0 < den)
    : (2 : ℚ) ^ floorLog2 num den ≤ num / den
      ∧ (num / den : ℚ) < 2 ^ (floorLog2 num den + 1) := by
  obtain ⟨numLow, numHigh⟩ := zpow_log2_bounds posNum
  obtain ⟨denLow, denHigh⟩ := zpow_log2_bounds posDen
  have posDenQ : (0 : ℚ) < den := by exact_mod_cast posDen
  -- The difference of the logarithms is right or too large by one.
  have low : (2 : ℚ) ^ ((num.log2 : Int) - den.log2 - 1) ≤ num / den := by
    rw [le_div_iff₀ posDenQ]
    calc (2 : ℚ) ^ ((num.log2 : Int) - den.log2 - 1) * den
        ≤ 2 ^ ((num.log2 : Int) - den.log2 - 1) * 2 ^ ((den.log2 : Int) + 1) := by gcongr
      _ = 2 ^ (num.log2 : Int) := by
          rw [← zpow_add₀ two_ne_zero]
          congr 1
          omega
      _ ≤ num := numLow
  have high : (num / den : ℚ) < 2 ^ ((num.log2 : Int) - den.log2 + 1) := by
    rw [div_lt_iff₀ posDenQ]
    calc (num : ℚ) < 2 ^ ((num.log2 : Int) + 1) := numHigh
      _ = 2 ^ ((num.log2 : Int) - den.log2 + 1) * 2 ^ (den.log2 : Int) := by
          rw [← zpow_add₀ two_ne_zero]
          congr 1
          omega
      _ ≤ 2 ^ ((num.log2 : Int) - den.log2 + 1) * den := by gcongr
  have shifted := shiftRatio_value num den ((num.log2 : Int) - den.log2)
  have posShifted := shiftRatio_pos posDen num ((num.log2 : Int) - den.log2)
  have reaches
      : (shiftRatio num den ((num.log2 : Int) - den.log2)).2
          ≤ (shiftRatio num den ((num.log2 : Int) - den.log2)).1
        ↔ (2 : ℚ) ^ ((num.log2 : Int) - den.log2) ≤ num / den := by
    have posPower : (0 : ℚ) < 2 ^ ((num.log2 : Int) - den.log2) := by positivity
    have posShiftedQ : (0 : ℚ) < (shiftRatio num den ((num.log2 : Int) - den.log2)).2 := by
      exact_mod_cast posShifted
    rw [← one_le_div₀ posPower, ← shifted, one_le_div₀ posShiftedQ, Nat.cast_le]
  rw [floorLog2]
  dsimp only
  split
  · next fits => exact ⟨reaches.mp fits, high⟩
  · next tooLarge =>
      rw [reaches, not_le] at tooLarge
      rw [sub_add_cancel]
      exact ⟨low, tooLarge⟩

/-- A quotient below a power of two has a smaller logarithm. -/
theorem floorLog2_lt {num den : Nat} (posNum : 0 < num) (posDen : 0 < den) {k : Int}
    (below : (num / den : ℚ) < 2 ^ k)
    : floorLog2 num den < k := by
  have powers := lt_of_le_of_lt (floorLog2_spec posNum posDen).1 below
  exact (zpow_lt_zpow_iff_right₀ one_lt_two).mp powers

/-- A quotient that reaches a power of two has no smaller logarithm. -/
theorem le_floorLog2 {num den : Nat} (posNum : 0 < num) (posDen : 0 < den) {k : Int}
    (above : (2 : ℚ) ^ k ≤ num / den)
    : k ≤ floorLog2 num den := by
  have powers := lt_of_le_of_lt above (floorLog2_spec posNum posDen).2
  have less : k < floorLog2 num den + 1 := (zpow_lt_zpow_iff_right₀ one_lt_two).mp powers
  omega

/-- Only the nearest natural is at most a half away; a tie goes to the even one. -/
theorem roundDiv_eq_of_bounds {num den m : Nat} (pos : 0 < den) (low : 2 * m * den ≤ 2 * num + den)
    (high : 2 * num ≤ 2 * m * den + den)
    (tie : m % 2 = 1 → 2 * m * den < 2 * num + den ∧ 2 * num < 2 * m * den + den)
    : roundDiv num den = m := by
  have split : den * (num / den) + num % den = num := Nat.div_add_mod num den
  have remainder : num % den < den := Nat.mod_lt num pos
  rw [roundDiv]
  generalize num / den = q at split
  generalize num % den = r at split remainder
  -- The natural is the quotient or the next one: any other is more than a half away.
  have notBelow : q ≤ m := by
    by_contra below
    have next : (m + 1) * den ≤ q * den := Nat.mul_le_mul_right den (by omega)
    grind
  have notAbove : m ≤ q + 1 := by
    by_contra above
    have next : (q + 2) * den ≤ m * den := Nat.mul_le_mul_right den (by omega)
    grind
  have cases : m = q ∨ m = q + 1 := by omega
  rcases cases with rfl | rfl
  · have noCarry : ¬ (den < 2 * r ∨ den = 2 * r ∧ m % 2 = 1) := by grind
    simp [noCarry]
  · have carry : den < 2 * r ∨ den = 2 * r ∧ q % 2 = 1 := by grind
    simp [carry]

/-- The same for the quotient as a rational. -/
theorem roundDiv_eq {num den m : Nat} (pos : 0 < den) (low : (2 * m - 1 : ℚ) ≤ 2 * (num / den))
    (high : (2 * (num / den) : ℚ) ≤ 2 * m + 1)
    (tie : m % 2 = 1 → (2 * m - 1 : ℚ) < 2 * (num / den) ∧ (2 * (num / den) : ℚ) < 2 * m + 1)
    : roundDiv num den = m := by
  have posQ : (0 : ℚ) < den := by exact_mod_cast pos
  have twice : (2 * (num / den) : ℚ) = 2 * num / den := by ring
  rw [twice] at low high tie
  rw [le_div_iff₀ posQ] at low
  rw [div_le_iff₀ posQ] at high
  rw [lt_div_iff₀ posQ, div_lt_iff₀ posQ] at tie
  refine roundDiv_eq_of_bounds pos ?_ ?_ ?_
  · have cleared : (2 * m * den : ℚ) ≤ 2 * num + den := by linarith
    exact_mod_cast cleared
  · have cleared : (2 * num : ℚ) ≤ 2 * m * den + den := by linarith
    exact_mod_cast cleared
  · intro odd
    obtain ⟨lower, upper⟩ := tie odd
    have clearedLower : (2 * m * den : ℚ) < 2 * num + den := by linarith
    have clearedUpper : (2 * num : ℚ) < 2 * m * den + den := by linarith
    exact ⟨by exact_mod_cast clearedLower, by exact_mod_cast clearedUpper⟩

-----------------------------------------------------------------------------------------
-- Numbers and their neighbourhoods
-----------------------------------------------------------------------------------------

/-- A significand has one bit more than a fraction. -/
theorem significand_lt (n : Number) : n.significand < 2 * fractionCount := by
  have bound := n.fraction.isLt
  rw [significand]
  split
  · omega
  · omega

/-- No scale is below that of the subnormal numbers. -/
theorem neg_1074_le_scale (n : Number) : -1074 ≤ n.scale := by
  rw [scale]
  omega

/-- Every finite number is put together from its significand and scale. -/
theorem assemble_significand {n : Number} (finite : n.isFinite = true)
    : assemble n.negative n.significand n.scale = n := by
  obtain ⟨negative, exponent, fraction⟩ := n
  have below : exponent.val < 2047 := by
    have notLast : exponent ≠ 2047 := by simpa [isFinite] using finite
    have bound := exponent.isLt
    have ne : exponent.val ≠ 2047 := fun same => notLast (Fin.ext same)
    omega
  have noOverflow : ¬ 971 < scale ⟨negative, exponent, fraction⟩ := by
    simp only [scale]
    omega
  rw [assemble, if_neg noOverflow]
  by_cases subnormal : exponent = 0
  · subst subnormal
    simp [significand]
  · have positive : 1 ≤ exponent.val := by
      have ne : exponent.val ≠ 0 := fun same => subnormal (Fin.ext same)
      omega
    have place : (scale ⟨negative, exponent, fraction⟩ + 1075).toNat = exponent.val := by
      simp only [scale]
      omega
    have leading : significand ⟨negative, exponent, fraction⟩ = fractionCount + fraction.val := by
      simp [significand, subnormal]
    have first : Fin.ofNat 2048 exponent.val = exponent :=
      Fin.ext (Nat.mod_eq_of_lt exponent.isLt)
    have last : Fin.ofNat fractionCount (fractionCount + fraction.val) = fraction := by
      apply Fin.ext
      simp [Nat.mod_eq_of_lt fraction.isLt]
    rw [place, leading, if_neg (by omega), first, last]

/-- The rational is one of the neighbourhood, whose unit is `2 ^ quarter`. -/
structure Neighbourhood.Holds (around : Neighbourhood) (quarter : Int) (x : ℚ) : Prop where
  low : around.low * 2 ^ quarter ≤ x
  high : x ≤ around.high * 2 ^ quarter
  inside : around.closed = false → around.low * 2 ^ quarter < x ∧ x < around.high * 2 ^ quarter

/-- The rational is so near the number that it rounds to it: at most half a unit of its last place
away, by less if the significand is odd, and by a quarter below a power of two.
-/
structure Near (n : Number) (y : ℚ) : Prop where
  low : (4 * n.significand - 2 : ℚ) ≤ 4 * y
  high : 4 * y ≤ (4 * n.significand + 2 : ℚ)
  odd
    : n.significand % 2 = 1
      → (4 * n.significand - 2 : ℚ) < 4 * y ∧ 4 * y < (4 * n.significand + 2 : ℚ)
  power : n.fraction.val = 0 → 1 < n.exponent.val → (4 * n.significand - 1 : ℚ) ≤ 4 * y

/-- Quarters of a unit are compared with a value from below. -/
theorem mul_quarter_le (a x : ℚ) (scale : Int)
    : a * 2 ^ (scale - 2) ≤ x ↔ a ≤ 4 * (x / 2 ^ scale) := by
  have pos : (0 : ℚ) < 2 ^ scale := by positivity
  have four : (2 : ℚ) ^ (2 : Int) = 4 := by norm_num
  rw [zpow_sub₀ two_ne_zero, four, ← mul_div_assoc, ← mul_div_assoc, div_le_iff₀ four_pos,
    le_div_iff₀ pos, mul_comm x]

/-- Quarters of a unit are compared with a value from above. -/
theorem le_mul_quarter (a x : ℚ) (scale : Int)
    : x ≤ a * 2 ^ (scale - 2) ↔ 4 * (x / 2 ^ scale) ≤ a := by
  have pos : (0 : ℚ) < 2 ^ scale := by positivity
  have four : (2 : ℚ) ^ (2 : Int) = 4 := by norm_num
  rw [zpow_sub₀ two_ne_zero, four, ← mul_div_assoc, ← mul_div_assoc, le_div_iff₀ four_pos,
    div_le_iff₀ pos, mul_comm x]

/-- The neighbourhood of a number, in units of its last place. -/
theorem near_of_holds {n : Number} (pos : 0 < n.significand) {x : ℚ}
    (holds : n.neighbourhood.Holds (n.scale - 2) x)
    : n.Near (x / 2 ^ n.scale) := by
  obtain ⟨low, high, inside⟩ := holds
  rw [mul_quarter_le] at low
  rw [le_mul_quarter] at high
  rw [← not_le, ← not_le, le_mul_quarter, mul_quarter_le, not_le, not_le] at inside
  generalize x / 2 ^ n.scale = y at low high inside
  have below : 4 * n.significand ≤ n.neighbourhood.low + 2 := by
    simp only [neighbourhood]
    split
    · omega
    · omega
  have lower : (4 * n.significand - 2 : ℚ) ≤ n.neighbourhood.low := by
    have cast : (4 * n.significand : ℚ) ≤ n.neighbourhood.low + 2 := by exact_mod_cast below
    linarith
  have upper : (n.neighbourhood.high : ℚ) = 4 * n.significand + 2 := by
    simp [neighbourhood]
  rw [upper] at high inside
  refine ⟨lower.trans low, high, ?_, ?_⟩
  · intro odd
    obtain ⟨strictLow, strictHigh⟩ := inside (by simp [neighbourhood, odd])
    exact ⟨lt_of_le_of_lt lower strictLow, strictHigh⟩
  · intro fraction exponent
    have denser : n.neighbourhood.low = 4 * n.significand - 1 := by
      simp [neighbourhood, fraction, exponent]
    rw [denser, Nat.cast_sub (by omega)] at low
    exact_mod_cast low

/-- Rounding a quotient near a number happens at the scale of the number, or, just below a power of
two, at the next smaller one.
-/
theorem scale_cases {n : Number} {num den : Nat} (posNum : 0 < num) (posDen : 0 < den)
    (near : n.Near (num / den / 2 ^ n.scale))
    : max (floorLog2 num den - 52) (-1074) = n.scale
      ∨ max (floorLog2 num den - 52) (-1074) = n.scale - 1
        ∧ n.significand = fractionCount
        ∧ n.fraction.val = 0
        ∧ 1 < n.exponent.val
        ∧ (num / den / 2 ^ n.scale : ℚ) < fractionCount := by
  have posScale : (0 : ℚ) < 2 ^ n.scale := by positivity
  have below {k : Int} (less : (num / den / 2 ^ n.scale : ℚ) < 2 ^ k)
      : floorLog2 num den < k + n.scale := by
    apply floorLog2_lt posNum posDen
    rwa [zpow_add₀ two_ne_zero, ← div_lt_iff₀ posScale]
  have above {k : Int} (greater : (2 : ℚ) ^ k ≤ num / den / 2 ^ n.scale)
      : k + n.scale ≤ floorLog2 num den := by
    apply le_floorLog2 posNum posDen
    rwa [zpow_add₀ two_ne_zero, ← le_div_iff₀ posScale]
  have smallest := n.neg_1074_le_scale
  obtain ⟨low, high, -, power⟩ := near
  generalize (num / den / 2 ^ n.scale : ℚ) = y at low high power below above
  have inRange : floorLog2 num den < 53 + n.scale := by
    apply below
    have bound : (n.significand : ℚ) + 1 ≤ 2 * fractionCount := by
      exact_mod_cast n.significand_lt
    norm_num at bound ⊢
    linarith
  by_cases normal : (fractionCount : ℚ) ≤ y
  · have reaches : 52 + n.scale ≤ floorLog2 num den := above (by norm_num at normal ⊢; exact normal)
    exact .inl (by omega)
  · rw [not_le] at normal
    have less : floorLog2 num den < 52 + n.scale := below (by norm_num at normal ⊢; exact normal)
    by_cases last : n.scale = -1074
    · exact .inl (by omega)
    · have exponent : 1 < n.exponent.val := by
        simp only [scale] at last
        omega
      have leading : n.significand = fractionCount + n.fraction.val := by
        have nonzero : n.exponent ≠ 0 := by
          intro zero
          simp [zero] at exponent
        simp [significand, nonzero]
      have atMost : n.significand ≤ fractionCount := by
        have strict : (4 * n.significand : ℚ) < 4 * fractionCount + 2 := by linarith
        have strictNat : 4 * n.significand < 4 * fractionCount + 2 := by exact_mod_cast strict
        omega
      have fraction : n.fraction.val = 0 := by omega
      have significand : n.significand = fractionCount := by omega
      have half := power fraction exponent
      have reaches : 51 + n.scale ≤ floorLog2 num den := by
        apply above
        rw [significand] at half
        norm_num at half ⊢
        linarith
      exact .inr ⟨by omega, significand, fraction, exponent, normal⟩

/-- What is near a number rounds to it. -/
theorem ofRatio_eq {n : Number} (finite : n.isFinite = true) (pos : 0 < n.significand)
    {num den : Nat} (posDen : 0 < den) (near : n.Near (num / den / 2 ^ n.scale))
    : ofRatio n.negative num den = n := by
  have posNum : 0 < num := by
    apply Nat.pos_of_ne_zero
    intro zero
    have low := near.low
    have one : (1 : ℚ) ≤ n.significand := by exact_mod_cast pos
    simp only [zero, Nat.cast_zero, zero_div, mul_zero] at low
    linarith
  rw [ofRatio, if_neg posNum.ne']
  dsimp only
  rcases scale_cases posNum posDen near
    with same | ⟨smaller, significand, fraction, exponent, below⟩
  · have rounded
        : roundDiv (shiftRatio num den n.scale).1 (shiftRatio num den n.scale).2
          = n.significand := by
      apply roundDiv_eq (shiftRatio_pos posDen num n.scale)
      · rw [shiftRatio_value]
        linarith [near.low]
      · rw [shiftRatio_value]
        linarith [near.high]
      · intro odd
        rw [shiftRatio_value]
        obtain ⟨low, high⟩ := near.odd odd
        exact ⟨by linarith, by linarith⟩
    have noCarry : n.significand ≠ 2 * fractionCount := n.significand_lt.ne
    rw [same, rounded, if_neg noCarry, assemble_significand finite]
  · have doubled : (num / den / 2 ^ (n.scale - 1) : ℚ) = 2 * (num / den / 2 ^ n.scale) := by
      rw [zpow_sub₀ two_ne_zero, zpow_one, div_div_eq_mul_div]
      ring
    have rounded
        : roundDiv (shiftRatio num den (n.scale - 1)).1 (shiftRatio num den (n.scale - 1)).2
          = 2 * fractionCount := by
      have low := near.power fraction exponent
      rw [significand] at low
      apply roundDiv_eq (shiftRatio_pos posDen num (n.scale - 1))
      · rw [shiftRatio_value, doubled]
        push_cast
        linarith
      · rw [shiftRatio_value, doubled]
        push_cast
        linarith
      · intro odd
        simp at odd
    rw [smaller, rounded, if_pos rfl, sub_add_cancel, ← significand, assemble_significand finite]

-----------------------------------------------------------------------------------------
-- What is rounded is a number
-----------------------------------------------------------------------------------------

/-- No finite number has the last exponent. -/
theorem exponent_ne_last {scale : Int} (small : ¬ 971 < scale)
    : Fin.ofNat 2048 (scale + 1075).toNat ≠ 2047 := by
  intro same
  have value : (scale + 1075).toNat % 2048 = 2047 := congrArg Fin.val same
  omega

/-- An assembled number is not NaN. -/
theorem isNaN_assemble (negative : Bool) (m : Nat) (scale : Int)
    : (assemble negative m scale).isNaN = false := by
  rw [assemble]
  split
  · rfl
  · next small =>
      split
      · rfl
      · rw [isNaN, decide_eq_false (exponent_ne_last small), Bool.false_and]

/-- A rounded quotient is not NaN. -/
theorem isNaN_ofRatio (negative : Bool) (num den : Nat)
    : (ofRatio negative num den).isNaN = false := by
  rw [ofRatio]
  split
  · rfl
  · dsimp only
    split
    · exact isNaN_assemble _ _ _
    · exact isNaN_assemble _ _ _

/-- A rounded decimal is not NaN. -/
theorem isNaN_ofDecimal (negative : Bool) (digits count : Nat) (power : Int)
    : (ofDecimal negative digits count power).isNaN = false := by
  rw [ofDecimal]
  split_ifs
  · rfl
  · rfl
  · rfl
  · exact isNaN_ofRatio _ _ _
  · exact isNaN_ofRatio _ _ _

end Number

end TypedScheme
