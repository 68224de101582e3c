import TypedScheme.Proofs.Number.Grammar
import TypedScheme.Proofs.Number.Rounding
import TypedScheme.Proofs.Token.Lexing

/-! Numbers that are written and read again.
The shortest decimal of a finite number lies in its neighbourhood, so that the numeral in which it is
written has the number as its value.
-/

namespace TypedScheme

namespace Number

-----------------------------------------------------------------------------------------
-- Multiples of a power of ten in a neighbourhood
-----------------------------------------------------------------------------------------

/-- The units of a neighbourhood and the powers of ten as naturals: `unit / grid` is
`2 ^ quarter / 10 ^ power`.
-/
def unitAndGrid (quarter power : Int) : Nat × Nat :=
  let (up, down) := if 0 ≤ quarter then (1 <<< quarter.toNat, 1) else (1, 1 <<< (-quarter).toNat)
  let (grid, fine) :=
    if 0 ≤ power then (Nat.pow 10 power.toNat * down, 1) else (down, Nat.pow 10 (-power).toNat)
  (up * fine, grid)

/-- Is the multiple of `grid` in the neighbourhood? -/
def Neighbourhood.contains (around : Neighbourhood) (unit grid multiple : Nat) : Bool :=
  if around.closed then
    around.low * unit ≤ multiple * grid && multiple * grid ≤ around.high * unit
  else around.low * unit < multiple * grid && multiple * grid < around.high * unit

/-- The multiple of `grid` in the neighbourhood that is nearest to the value. -/
def Neighbourhood.nearest? (around : Neighbourhood) (unit grid : Nat) : Option Nat :=
  let value := around.value * unit
  let lower := value / grid
  match around.contains unit grid lower, around.contains unit grid (lower + 1) with
  | true, true =>
      if value - lower * grid < (lower + 1) * grid - value then some lower else some (lower + 1)
  | true, false => some lower
  | false, true => some (lower + 1)
  | false, false => none

/-- The multiple looked for is the nearest one on the grid. -/
theorem multipleAt?_eq (around : Neighbourhood) (quarter power : Int)
    : multipleAt? around quarter power
      = around.nearest? (unitAndGrid quarter power).1 (unitAndGrid quarter power).2 :=
  rfl

/-- What is found is in the neighbourhood. -/
theorem contains_of_nearest? {around : Neighbourhood} {unit grid c : Nat}
    (found : around.nearest? unit grid = some c)
    : around.contains unit grid c = true := by
  rw [Neighbourhood.nearest?] at found
  split at found
  · next low high =>
      split at found
      · cases found
        exact low
      · cases found
        exact high
  · next low _ =>
      cases found
      exact low
  · next _ high =>
      cases found
      exact high
  · cases found

/-- Something is found if the value itself is a multiple. -/
theorem nearest?_isSome {around : Neighbourhood} {unit grid c : Nat} (posUnit : 0 < unit)
    (posGrid : 0 < grid) (multiple : around.value * unit = c * grid)
    (low : around.low < around.value) (high : around.value < around.high)
    : (around.nearest? unit grid).isSome = true := by
  have lower : around.value * unit / grid = c := by
    rw [multiple, Nat.mul_div_cancel _ posGrid]
  have inside : around.contains unit grid c = true := by
    have above : around.low * unit < c * grid := multiple ▸ Nat.mul_lt_mul_of_pos_right low posUnit
    have below : c * grid < around.high * unit :=
      multiple ▸ Nat.mul_lt_mul_of_pos_right high posUnit
    simp [Neighbourhood.contains, above, above.le, below, below.le]
  rw [Neighbourhood.nearest?]
  simp only [lower, inside]
  cases around.contains unit grid (c + 1) with
  | false => rfl
  | true =>
      dsimp only
      split
      · rfl
      · rfl

/-- A power that is not negative is one of naturals. -/
theorem zpow_toNat {power : Int} (nonneg : 0 ≤ power) (base : ℚ)
    : base ^ power = base ^ power.toNat := by
  rw [← zpow_natCast, Int.toNat_of_nonneg nonneg]

/-- A negative power is the inverse of one of naturals. -/
theorem zpow_neg_toNat {power : Int} (negative : ¬ 0 ≤ power) (base : ℚ)
    : base ^ power = (base ^ (-power).toNat)⁻¹ := by
  rw [← zpow_natCast, Int.toNat_of_nonneg (by omega), zpow_neg, inv_inv]

/-- Units and grid are positive. -/
theorem unitAndGrid_pos (quarter power : Int)
    : 0 < (unitAndGrid quarter power).1 ∧ 0 < (unitAndGrid quarter power).2 := by
  rw [unitAndGrid]
  simp only [Nat.shiftLeft_eq, Nat.pow_eq]
  by_cases whole : 0 ≤ quarter
  · by_cases large : 0 ≤ power
    · simp [whole, large]
    · simp [whole, large]
  · by_cases large : 0 ≤ power
    · simp [whole, large]
    · simp [whole, large]

/-- Units and grid stand for the powers that they were made from. -/
theorem unitAndGrid_value (quarter power : Int)
    : ((unitAndGrid quarter power).1 : ℚ) / (unitAndGrid quarter power).2
      = 2 ^ quarter / 10 ^ power := by
  rw [unitAndGrid]
  simp only [Nat.shiftLeft_eq, Nat.pow_eq]
  by_cases whole : 0 ≤ quarter
  · by_cases large : 0 ≤ power
    · simp [whole, large, zpow_toNat whole, zpow_toNat large]
    · simp [whole, large, zpow_toNat whole, zpow_neg_toNat large]
  · by_cases large : 0 ≤ power
    · simp [whole, large, zpow_neg_toNat whole, zpow_toNat large]
      field_simp
    · simp [whole, large, zpow_neg_toNat whole, zpow_neg_toNat large]
      field_simp

/-- The multiple is in the neighbourhood as a rational, too. -/
theorem holds_of_contains {around : Neighbourhood} {quarter power : Int} {c : Nat}
    (contains
      : around.contains (unitAndGrid quarter power).1 (unitAndGrid quarter power).2 c = true)
    : around.Holds quarter (c * 10 ^ power) := by
  have posGrid := (unitAndGrid_pos quarter power).2
  have ratio := unitAndGrid_value quarter power
  generalize (unitAndGrid quarter power).1 = unit at contains ratio
  generalize (unitAndGrid quarter power).2 = grid at contains posGrid ratio
  have posGridQ : (0 : ℚ) < grid := by exact_mod_cast posGrid
  have posTen : (0 : ℚ) < 10 ^ power := by positivity
  have factor : (0 : ℚ) < grid / 10 ^ power := by positivity
  have point : (c * 10 ^ power : ℚ) * (grid / 10 ^ power) = (c * grid : Nat) := by
    push_cast
    field_simp
  have bound (a : Nat) : (a * 2 ^ quarter : ℚ) * (grid / 10 ^ power) = (a * unit : Nat) := by
    rw [div_eq_div_iff posGridQ.ne' posTen.ne'] at ratio
    push_cast
    rw [mul_assoc, ← mul_div_assoc, ← ratio, mul_div_cancel_right₀ _ posTen.ne']
  -- Both sides of each comparison are multiplied by the same positive factor.
  have above (a : Nat) : (a * 2 ^ quarter : ℚ) ≤ c * 10 ^ power ↔ a * unit ≤ c * grid := by
    rw [← mul_le_mul_iff_of_pos_right factor, bound, point, Nat.cast_le]
  have below (a : Nat) : (c * 10 ^ power : ℚ) ≤ a * 2 ^ quarter ↔ c * grid ≤ a * unit := by
    rw [← mul_le_mul_iff_of_pos_right factor, bound, point, Nat.cast_le]
  rw [Neighbourhood.contains] at contains
  split at contains
  · next closed =>
      simp only [Bool.and_eq_true, decide_eq_true_eq] at contains
      obtain ⟨low, high⟩ := contains
      exact ⟨(above _).mpr low, (below _).mpr high, by simp [closed]⟩
  · simp only [Bool.and_eq_true, decide_eq_true_eq] at contains
    obtain ⟨low, high⟩ := contains
    refine ⟨(above _).mpr low.le, (below _).mpr high.le, fun _ => ?_⟩
    rw [← not_le, ← not_le, above, below, not_le, not_le]
    exact ⟨low, high⟩

-----------------------------------------------------------------------------------------
-- The shortest decimal
-----------------------------------------------------------------------------------------

end Number

/-- The rational that a decimal stands for. -/
def Decimal.value (d : Decimal) : ℚ := d.coefficient * 10 ^ d.power

namespace Number

/-- The search stops at a multiple in the neighbourhood if there is one at a power on its way. -/
theorem coarsest_holds {around : Neighbourhood} {quarter : Int} {steps : Nat} {power : Int}
    {skipped : Nat} (onTheWay : skipped < steps)
    (hit : (multipleAt? around quarter (power - skipped)).isSome = true)
    : around.Holds quarter (coarsest around quarter steps power).value := by
  induction steps generalizing power skipped with
  | zero => omega
  | succ steps ih =>
      rw [coarsest]
      cases found : multipleAt? around quarter power with
      | some c => exact holds_of_contains (contains_of_nearest? found)
      | none =>
          cases skipped with
          | zero =>
              rw [Nat.cast_zero, sub_zero, found] at hit
              cases hit
          | succ skipped =>
              apply ih (show skipped < steps by omega)
              rw [sub_sub, add_comm 1]
              exact_mod_cast hit

/-- A number is a multiple of the power of ten whose exponent is not above its scale. -/
theorem multipleAt?_of_scale {n : Number} (pos : 0 < n.significand) {k : Nat}
    (fine : -(k : Int) ≤ n.scale)
    : (multipleAt? n.neighbourhood (n.scale - 2) (-k)).isSome = true := by
  obtain ⟨posUnit, posGrid⟩ := unitAndGrid_pos (n.scale - 2) (-k)
  have ratio := unitAndGrid_value (n.scale - 2) (-k)
  rw [multipleAt?_eq]
  generalize (unitAndGrid (n.scale - 2) (-k)).1 = unit at posUnit ratio
  generalize (unitAndGrid (n.scale - 2) (-k)).2 = grid at posGrid ratio
  have multiple
      : n.neighbourhood.value * unit
        = n.significand * 2 ^ (n.scale + k).toNat * 5 ^ k * grid := by
    have posGridQ : (0 : ℚ) < grid := by exact_mod_cast posGrid
    have four : (2 : ℚ) ^ (2 : Int) = 4 := by norm_num
    have ten : (10 : ℚ) ^ k = 2 ^ k * 5 ^ k := by rw [← mul_pow]; norm_num
    have whole : (2 : ℚ) ^ (n.scale + k).toNat = 2 ^ n.scale * 2 ^ k := by
      rw [← zpow_toNat (by omega), zpow_add₀ two_ne_zero, zpow_natCast]
    rw [div_eq_iff posGridQ.ne', zpow_neg, div_inv_eq_mul, zpow_natCast, ten,
      zpow_sub₀ two_ne_zero, four] at ratio
    have cleared
        : (4 * n.significand * unit : ℚ)
          = n.significand * 2 ^ (n.scale + k).toNat * 5 ^ k * grid := by
      rw [ratio, whole]
      ring
    exact_mod_cast cleared
  apply nearest?_isSome posUnit posGrid multiple
  · simp only [neighbourhood]
    split
    · omega
    · omega
  · simp only [neighbourhood]
    omega

/-- The shortest decimal of a number lies in its neighbourhood. -/
theorem shortest_holds {n : Number} (pos : 0 < n.significand)
    : n.neighbourhood.Holds (n.scale - 2) n.shortest.value := by
  have smallest := n.neg_1074_le_scale
  have bits : 2 ≤ (4 * n.significand).log2 := by
    rw [Nat.le_log2 (by omega)]
    omega
  have last := multipleAt?_of_scale pos (show -((1074 : Nat) : Int) ≤ n.scale by omega)
  rw [shortest]
  -- The search begins above the power of ten at which it cannot miss.
  generalize topIs
    : (if 0 ≤ ((4 * n.significand).log2 + 1 + (n.scale - 2) : Int) then
        ((4 * n.significand).log2 + 1 + (n.scale - 2) : Int) * 30103 / 100000 + 1
      else ((4 * n.significand).log2 + 1 + (n.scale - 2) : Int) * 30102 / 100000 + 1)
      = top
  have above : -1074 ≤ top := by
    rw [← topIs]
    split
    · omega
    · omega
  apply coarsest_holds (show (top + 1074).toNat < (top + 1074 + 1).toNat by omega)
  have way : top - ((top + 1074).toNat : Int) = -((1074 : Nat) : Int) := by omega
  rw [way]
  exact last

end Number

-----------------------------------------------------------------------------------------
-- Numerals without an exponent
-----------------------------------------------------------------------------------------

namespace Numeral

/-- A text with a minus sign if the number is negative. -/
def signed (negative : Bool) (cs : List Char) : List Char := if negative then '-' :: cs else cs

/-- A signed text is a written sign and the text. -/
theorem signed_written (negative : Bool) (cs : List Char)
    : ∃ sign, SignWritten sign negative ∧ signed negative cs = sign ++ cs := by
  cases negative with
  | true => exact ⟨['-'], .minus, rfl⟩
  | false => exact ⟨[], .none, rfl⟩

/-- Digits are a numeral, with a fraction or without one. -/
theorem ofChars?_signed {cs digits : List Char} {fractionLength : Nat}
    (inDigits : DigitsWritten cs digits fractionLength) (negative : Bool)
    : ofChars? (signed negative cs) = some ⟨negative, digits, fractionLength, 0⟩ := by
  obtain ⟨sign, inSign, text⟩ := signed_written negative cs
  have written := Written.mk inSign inDigits .none
  rw [List.append_nil, ← text] at written
  exact ofChars?_of_written written

/-- The value of digits is that of the library. -/
theorem decimalValue_eq (digits : List Char) : decimalValue digits = Nat.ofDigitChars 10 digits 0 :=
  Nat.ofDigitChars_eq_foldl.symm

/-- Zeros behind digits multiply them by powers of ten. -/
theorem decimalValue_append_zeros (digits : List Char) (count : Nat)
    : decimalValue (digits ++ List.replicate count '0') = 10 ^ count * decimalValue digits := by
  rw [decimalValue_eq, decimalValue_eq, Nat.ofDigitChars_append, Nat.ofDigitChars_replicate_zero]

/-- Zeros before digits do not count. -/
theorem decimalValue_zeros_append (digits : List Char) (count : Nat)
    : decimalValue (List.replicate count '0' ++ digits) = decimalValue digits := by
  rw [decimalValue_eq, decimalValue_eq, Nat.ofDigitChars_append, Nat.ofDigitChars_replicate_zero,
    Nat.mul_zero]

/-- The value of a numeral without an exponent is a rounded quotient. -/
theorem value_eq {k : Numeral} (plain : k.exponent = 0)
    (short : k.fractionLength ≤ k.digits.length) (nonzero : decimalValue k.digits ≠ 0)
    : k.value
      = Number.ofRatio k.negative (decimalValue k.digits) (10 ^ k.fractionLength) := by
  rw [value, plain, Number.ofDecimal, if_neg nonzero, if_neg (by omega), if_neg (by omega)]
  split
  · next none =>
      have zero : k.fractionLength = 0 := by omega
      simp [zero]
  · simp

end Numeral

namespace Decimal

open Numeral

/-- The numeral has the value of the decimal, and no exponent. -/
structure WrittenAs (d : Decimal) (k : Numeral) : Prop where
  exponent : k.exponent = 0
  short : k.fractionLength ≤ k.digits.length
  value : (decimalValue k.digits / (10 ^ k.fractionLength : Nat) : ℚ) = d.value

/-- Positional notation is a numeral of the decimal. -/
theorem positional_writtenAs (d : Decimal) (negative : Bool)
    : ∃ k,
        ofChars? (signed negative d.positional) = some k
        ∧ k.negative = negative
        ∧ d.WrittenAs k := by
  have nonempty : Nat.toDigits 10 d.coefficient ≠ [] := Nat.toDigits_ne_nil
  have digits : ∀ c ∈ Nat.toDigits 10 d.coefficient, c.isDigit = true :=
    fun c member => Nat.isDigit_of_mem_toDigits (by decide) (by decide) member
  have zeros (count : Nat) : ∀ c ∈ List.replicate count '0', c.isDigit = true := by
    intro c member
    rw [List.eq_of_mem_replicate member]
    decide
  have value : decimalValue (Nat.toDigits 10 d.coefficient) = d.coefficient :=
    (decimalValue_eq _).trans Nat.ofDigitChars_ten_toDigits
  rw [positional]
  dsimp only
  split
  · next nonneg =>
      refine ⟨_, ofChars?_signed (.whole ⟨by simp [nonempty], ?_⟩) negative, rfl, rfl, by simp, ?_⟩
      · exact List.forall_mem_append.mpr ⟨digits, zeros _⟩
      · rw [decimalValue_append_zeros, value, Decimal.value, Number.zpow_toNat nonneg]
        push_cast
        ring
  · next negativePower =>
      have den : d.value = d.coefficient / (10 ^ (-d.power).toNat : Nat) := by
        rw [Decimal.value, Number.zpow_neg_toNat negativePower]
        push_cast
        rfl
      split
      · next inside =>
          generalize Nat.toDigits 10 d.coefficient = ds at nonempty digits value inside
          refine ⟨_, ofChars?_signed (.point ⟨?_, ?_⟩ ?_) negative, rfl, rfl, by simp, ?_⟩
          · rw [← List.length_pos_iff, List.length_take]
            omega
          · exact fun c member => digits c (List.mem_of_mem_take member)
          · exact fun c member => digits c (List.mem_of_mem_drop member)
          · have places : (ds.drop (ds.length - (-d.power).toNat)).length = (-d.power).toNat := by
              rw [List.length_drop]
              omega
            rw [List.take_append_drop, value, places, den]
      · next before =>
          generalize Nat.toDigits 10 d.coefficient = ds at nonempty digits value before
          generalize paddingIs : (-d.power).toNat - ds.length = padding
          have places : (List.replicate padding '0' ++ ds).length = (-d.power).toNat := by
            rw [List.length_append, List.length_replicate]
            omega
          have padded : decimalValue ('0' :: (List.replicate padding '0' ++ ds)) = d.coefficient := by
            rw [← List.cons_append, ← List.replicate_succ, decimalValue_zeros_append, value]
          refine ⟨_, ofChars?_signed (.point ⟨List.cons_ne_nil '0' [], zeros 1⟩
            (List.forall_mem_append.mpr ⟨zeros _, digits⟩)) negative, rfl, rfl, by simp, ?_⟩
          rw [List.singleton_append, padded, places, den]

end Decimal

namespace Number

open Numeral

/-- A finite number is printed as its sign and its shortest digits, or as zero. -/
theorem toChars_eq {n : Number} (finite : n.isFinite = true)
    : n.toChars = signed n.negative (if n.isZero then ['0'] else n.shortest.positional) := by
  have exponent : n.exponent ≠ 2047 := by simpa [isFinite] using finite
  simp [toChars, isNaN, isInfinite, exponent, signed]

/-- Only zero has the significand zero. -/
theorem significand_pos {n : Number} (nonzero : n.isZero = false) : 0 < n.significand := by
  rw [significand]
  split
  · next subnormal =>
      have fraction : n.fraction ≠ 0 := by simpa [isZero, subnormal] using nonzero
      exact Nat.pos_of_ne_zero fun zero => fraction (Fin.ext zero)
  · omega

/-- What a finite number is printed as has the number as its value. -/
theorem value_toChars {n : Number} (finite : n.isFinite = true)
    : ∃ k, ofChars? n.toChars = some k ∧ k.value = n := by
  rw [toChars_eq finite]
  cases isZero : n.isZero with
  | true =>
      refine ⟨_, ofChars?_signed (.whole ⟨List.cons_ne_nil '0' [], by simp⟩) n.negative, ?_⟩
      obtain ⟨negative, exponent, fraction⟩ := n
      simp only [Number.isZero, Bool.and_eq_true, decide_eq_true_eq] at isZero
      obtain ⟨rfl, rfl⟩ := isZero
      rfl
  | false =>
      have pos := significand_pos isZero
      have near := near_of_holds pos (shortest_holds pos)
      obtain ⟨k, numeral, negative, written⟩ := n.shortest.positional_writtenAs n.negative
      refine ⟨k, numeral, ?_⟩
      rw [← written.value] at near
      have nonzero : decimalValue k.digits ≠ 0 := by
        intro zero
        have low := near.low
        have one : (1 : ℚ) ≤ n.significand := by exact_mod_cast pos
        simp only [zero, Nat.cast_zero, zero_div, mul_zero] at low
        linarith
      rw [value_eq written.exponent written.short nonzero, negative]
      exact ofRatio_eq finite pos (by positivity) near

end Number

/-- A finite number is read back from its text. -/
theorem Token.ofWord_number {n : Number} (finite : n.isFinite = true)
    : Token.ofWord n.toChars = .number n := by
  obtain ⟨k, numeral, value⟩ := Number.value_toChars finite
  simp only [Token.ofWord, numeral, value]

-----------------------------------------------------------------------------------------
-- Numerals are words
-----------------------------------------------------------------------------------------

namespace Numeral

open Text

/-- The characters of numerals. -/
def isNumeralChar (c : Char) : Bool :=
  c.isDigit || c = '.' || c = '+' || c = '-' || c = 'e' || c = 'E'

/-- A character of a numeral may stand in a word. -/
theorem wordChar_of_numeralChar {c : Char} (inNumeral : isNumeralChar c = true)
    : isDelimiter c = false ∧ c ≠ '#' := by
  have others
      : ∀ d ∈ [' ', '\t', '\r', '\n', '\x0c', '(', ')', '\'', '"', ';', '#'],
          isNumeralChar d = false := by
    simp [isNumeralChar]
  have outside
      : c ∉ [' ', '\t', '\r', '\n', '\x0c', '(', ')', '\'', '"', ';', '#'] := by
    intro member
    rw [others c member] at inNumeral
    cases inNumeral
  simp only [List.mem_cons, List.not_mem_nil, not_or] at outside
  simp [isDelimiter, isBlank, outside]

/-- Digits are characters of numerals. -/
theorem numeralChar_of_digit {c : Char} (digit : c.isDigit = true) : isNumeralChar c = true := by
  simp [isNumeralChar, digit]

/-- Signs are characters of numerals. -/
theorem numeralChar_of_signWritten {sign : List Char} {negative : Bool}
    (written : SignWritten sign negative)
    : ∀ c ∈ sign, isNumeralChar c = true := by
  cases written with
  | none | plus | minus => simp [isNumeralChar]

/-- Written mantissas consist of characters of numerals. -/
theorem numeralChar_of_digitsWritten {mantissa digits : List Char} {fractionLength : Nat}
    (written : DigitsWritten mantissa digits fractionLength)
    : ∀ c ∈ mantissa, isNumeralChar c = true := by
  intro c member
  cases written with
  | whole isWhole => exact numeralChar_of_digit (isWhole.each c member)
  | point isWhole inFraction =>
      rcases List.mem_append.mp member with inWhole | later
      · exact numeralChar_of_digit (isWhole.each c inWhole)
      · rcases List.mem_cons.mp later with rfl | last
        · decide
        · exact numeralChar_of_digit (inFraction c last)
  | fraction isFraction =>
      rcases List.mem_cons.mp member with rfl | last
      · decide
      · exact numeralChar_of_digit (isFraction.each c last)

/-- Written exponents consist of characters of numerals. -/
theorem numeralChar_of_exponentWritten {exponent : List Char} {power : Int}
    (written : ExponentWritten exponent power)
    : ∀ c ∈ exponent, isNumeralChar c = true := by
  intro c member
  cases written with
  | none => cases member
  | some isMark inSign isDigits =>
      rcases List.mem_cons.mp member with rfl | later
      · rcases isMark with rfl | rfl
        · decide
        · decide
      · rcases List.mem_append.mp later with sign | digit
        · exact numeralChar_of_signWritten inSign c sign
        · exact numeralChar_of_digit (isDigits.each c digit)

/-- Every numeral is a word. -/
theorem isWord_of_ofChars? {cs : List Char} {k : Numeral} (numeral : ofChars? cs = some k)
    : IsWord cs := by
  have each : ∀ c ∈ cs, isNumeralChar c = true := by
    intro c member
    obtain ⟨inSign, inDigits, inExponent⟩ := written_of_ofChars? numeral
    rcases List.mem_append.mp member with sign | unsigned
    · exact numeralChar_of_signWritten inSign c sign
    · rcases List.mem_append.mp unsigned with digits | exponent
      · exact numeralChar_of_digitsWritten inDigits c digits
      · exact numeralChar_of_exponentWritten inExponent c exponent
  refine ⟨?_, ?_, fun c member => (wordChar_of_numeralChar (each c member)).1⟩
  · intro empty
    rw [empty] at numeral
    cases numeral
  · intro hash
    exact (wordChar_of_numeralChar (each '#' (List.mem_of_mem_head? hash))).2 rfl

end Numeral

end TypedScheme
