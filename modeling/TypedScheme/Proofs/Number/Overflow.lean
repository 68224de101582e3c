import TypedScheme.Proofs.Number.RoundTrip
import TypedScheme.Proofs.Token.Tiling

/-! Numbers that are too large for a numeral.
A numeral of a large magnitude has an infinity as its value, which is printed as a word that is no
numeral. Main statement: a number that is read from a text is printed as a numeral exactly if what
was written lies below half a unit of the last place above the largest finite number.
-/

namespace TypedScheme

namespace Number

-----------------------------------------------------------------------------------------
-- Quotients that are rounded to finite numbers
-----------------------------------------------------------------------------------------

/-- The least magnitude that is not rounded to a finite number, which is `2 ^ 1024 - 2 ^ 970`. The
largest finite number is `(2 ^ 53 - 1) * 2 ^ 971`.
-/
def overflow : ℚ := (2 ^ 53 - 1 / 2) * 2 ^ (971 : Int)

/-- The overflow threshold lies between the two powers of two around it. -/
theorem overflow_bounds : (2 : ℚ) ^ (1023 : Int) ≤ overflow ∧ overflow ≤ 2 ^ (1024 : Int) := by
  have positive : (0 : ℚ) < 2 ^ (971 : Int) := by positivity
  have below : (2 : ℚ) ^ (1023 : Int) = 2 ^ 52 * 2 ^ (971 : Int) := by
    rw [← zpow_natCast, ← zpow_add₀ two_ne_zero]
    rfl
  have above : (2 : ℚ) ^ (1024 : Int) = 2 ^ 53 * 2 ^ (971 : Int) := by
    rw [← zpow_natCast, ← zpow_add₀ two_ne_zero]
    rfl
  rw [below, above, overflow]
  exact ⟨mul_le_mul_of_nonneg_right (by norm_num) positive.le,
    mul_le_mul_of_nonneg_right (by norm_num) positive.le⟩

/-- A number is finite exactly if its scale is at most the greatest one. -/
theorem isFinite_assemble_iff (negative : Bool) (m : Nat) (scale : Int)
    : (assemble negative m scale).isFinite = true ↔ scale ≤ 971 := by
  rw [assemble]
  split
  · next large =>
      have infinite : (infinity negative).isFinite = false := rfl
      simp [infinite, large]
  · next small =>
      split
      · exact iff_of_true rfl (not_lt.mp small)
      · exact iff_of_true (decide_eq_true (exponent_ne_last small)) (not_lt.mp small)

/-- A rounded quotient is at most half above the quotient. -/
theorem roundDiv_le {num den : Nat} (pos : 0 < den)
    : (2 * roundDiv num den - 1 : ℚ) ≤ 2 * (num / den) := by
  have whole : den * (num / den) + num % den = num := Nat.div_add_mod num den
  have bound : 2 * roundDiv num den * den ≤ 2 * num + den := by
    rw [roundDiv]
    generalize num / den = q at whole ⊢
    generalize num % den = r at whole ⊢
    split
    · next up =>
        have half : den ≤ 2 * r := by omega
        linarith
    · linarith
  have posQ : (0 : ℚ) < den := by exact_mod_cast pos
  have boundQ : (2 * roundDiv num den * den : ℚ) ≤ 2 * num + den := by exact_mod_cast bound
  rw [← mul_div_assoc, le_div_iff₀ posQ]
  linarith

/-- The rounded quotient reaches the next power of two from half a unit below it on. -/
theorem roundDiv_eq_power_iff {num den : Nat} (pos : 0 < den)
    (below : (num / den : ℚ) < 2 * fractionCount)
    : roundDiv num den = 2 * fractionCount ↔ (2 * fractionCount - 1 / 2 : ℚ) ≤ num / den := by
  constructor
  · intro carried
    have bound := @roundDiv_le num den pos
    rw [carried] at bound
    push_cast at bound
    linarith
  · intro reached
    apply roundDiv_eq pos
    · push_cast
      linarith
    · push_cast
      linarith
    · intro odd
      simp at odd

/-- A quotient is rounded to a finite number exactly if it is below the overflow. Only where the
scale is the largest one of finite numbers does it depend on the rounding.
-/
theorem isFinite_ofRatio_iff (negative : Bool) {num den : Nat} (posNum : 0 < num) (posDen : 0 < den)
    : (ofRatio negative num den).isFinite = true ↔ (num / den : ℚ) < overflow := by
  obtain ⟨low, high⟩ := floorLog2_spec posNum posDen
  obtain ⟨lowest, highest⟩ := overflow_bounds
  rw [ofRatio, if_neg posNum.ne']
  dsimp only
  generalize scaleIs : max (floorLog2 num den - 52) (-1074) = scale
  rcases lt_trichotomy scale 971 with smaller | last | larger
  · have powers : (2 : ℚ) ^ (floorLog2 num den + 1) ≤ 2 ^ (1023 : Int) :=
      zpow_le_zpow_right₀ one_le_two (by omega)
    refine iff_of_true ?_ (lt_of_lt_of_le high (powers.trans lowest))
    split
    · exact (isFinite_assemble_iff _ _ _).mpr (by omega)
    · exact (isFinite_assemble_iff _ _ _).mpr (by omega)
  · have unit : (0 : ℚ) < 2 ^ scale := by positivity
    have count : (2 * fractionCount : ℚ) = 2 ^ 53 := by norm_num
    have below : (num / den / 2 ^ scale : ℚ) < 2 * fractionCount := by
      have powers : (2 : ℚ) ^ (floorLog2 num den + 1) = 2 ^ 53 * 2 ^ scale := by
        rw [show floorLog2 num den + 1 = ((53 : Nat) : Int) + scale by omega,
          zpow_add₀ two_ne_zero, zpow_natCast]
      rwa [powers, ← div_lt_iff₀ unit, ← count] at high
    rw [← shiftRatio_value] at below
    have carries := roundDiv_eq_power_iff (shiftRatio_pos posDen num scale) below
    rw [shiftRatio_value, count] at carries
    rw [overflow, ← last, ← div_lt_iff₀ unit, ← not_le, ← carries]
    split
    · next full =>
        refine iff_of_false ?_ (not_not.mpr full)
        rw [isFinite_assemble_iff]
        omega
    · next free => exact iff_of_true ((isFinite_assemble_iff _ _ _).mpr (by omega)) free
  · have powers : (2 : ℚ) ^ (1024 : Int) ≤ 2 ^ floorLog2 num den :=
      zpow_le_zpow_right₀ one_le_two (by omega)
    refine iff_of_false ?_ (not_lt.mpr ((highest.trans powers).trans low))
    split
    · rw [isFinite_assemble_iff]
      omega
    · rw [isFinite_assemble_iff]
      omega

/-- A power of ten beyond all finite numbers. -/
theorem two_zpow_le_ten_zpow : (2 : ℚ) ^ (1024 : Int) ≤ 10 ^ (311 : Int) := by
  have naturals : 2 ^ 1024 ≤ 10 ^ 311 := by decide +kernel
  exact_mod_cast naturals

/-- A decimal is read as a finite number exactly if it is below the overflow. The largest and the
smallest ones are not rounded at all, and are compared with powers of ten.
-/
theorem isFinite_ofDecimal_iff (negative : Bool) {digits count : Nat} (power : Int)
    (bound : digits < 10 ^ count)
    : (ofDecimal negative digits count power).isFinite = true
      ↔ (digits * 10 ^ power : ℚ) < overflow := by
  obtain ⟨lowest, highest⟩ := overflow_bounds
  have one : (1 : ℚ) ≤ overflow := (one_le_zpow₀ one_le_two (by decide)).trans lowest
  rw [ofDecimal]
  split_ifs with zero large small whole
  · refine iff_of_true rfl ?_
    rw [zero, Nat.cast_zero, zero_mul]
    exact lt_of_lt_of_le one_pos one
  · have infinite : (infinity negative).isFinite = false := rfl
    have digit : (1 : ℚ) ≤ digits := Nat.one_le_cast.mpr (Nat.pos_of_ne_zero zero)
    have powers : (10 : ℚ) ^ (311 : Int) ≤ 10 ^ power := zpow_le_zpow_right₀ (by norm_num) large
    have positive : (0 : ℚ) ≤ 10 ^ power := by positivity
    rw [infinite]
    refine iff_of_false Bool.false_ne_true (not_lt.mpr ?_)
    calc overflow ≤ 10 ^ power := (highest.trans two_zpow_le_ten_zpow).trans powers
      _ ≤ digits * 10 ^ power := le_mul_of_one_le_left positive digit
  · have below : (digits : ℚ) < 10 ^ (count : Int) := by exact_mod_cast bound
    have positive : (0 : ℚ) < 10 ^ power := by positivity
    refine iff_of_true rfl (lt_of_lt_of_le ?_ one)
    calc (digits * 10 ^ power : ℚ) < 10 ^ (count : Int) * 10 ^ power :=
          mul_lt_mul_of_pos_right below positive
      _ = 10 ^ (count + power) := (zpow_add₀ (by norm_num) _ _).symm
      _ ≤ 1 := zpow_le_one_of_nonpos₀ (by norm_num) (by omega)
  · have posNum : 0 < digits * Nat.pow 10 power.toNat :=
      Nat.mul_pos (Nat.pos_of_ne_zero zero) (Nat.pow_pos (by decide))
    rw [isFinite_ofRatio_iff negative posNum one_pos, zpow_toNat whole]
    norm_num
  · have posDen : 0 < Nat.pow 10 (-power).toNat := Nat.pow_pos (by decide)
    rw [isFinite_ofRatio_iff negative (Nat.pos_of_ne_zero zero) posDen, zpow_neg_toNat whole,
      ← div_eq_mul_inv]
    norm_num

-----------------------------------------------------------------------------------------
-- Signs and the printed form of infinities
-----------------------------------------------------------------------------------------

/-- A number is assembled with its sign. -/
theorem negative_assemble (negative : Bool) (m : Nat) (scale : Int)
    : (assemble negative m scale).negative = negative := by
  rw [assemble]
  split_ifs
  · rfl
  · rfl
  · rfl

/-- Rounding keeps the sign. -/
theorem negative_ofRatio (negative : Bool) (num den : Nat)
    : (ofRatio negative num den).negative = negative := by
  rw [ofRatio]
  split
  · rfl
  · dsimp only
    split
    · exact negative_assemble _ _ _
    · exact negative_assemble _ _ _

/-- An infinite number is printed as `inf` with its sign. -/
theorem toChars_infinite {n : Number} (number : n.isNaN = false) (infinite : n.isFinite = false)
    : n.toChars = Numeral.signed n.negative ['i', 'n', 'f'] := by
  have exponent : n.exponent = 2047 := by simpa [isFinite] using infinite
  have fraction : n.fraction = 0 := by simpa [isNaN, exponent] using number
  simp [toChars, isNaN, isInfinite, exponent, fraction, Numeral.signed]

end Number

namespace Numeral

-----------------------------------------------------------------------------------------
-- The magnitude of a numeral
-----------------------------------------------------------------------------------------

/-- The absolute value of what is written. -/
def magnitude (k : Numeral) : ℚ :=
  decimalValue k.digits * 10 ^ (k.exponent - k.fractionLength)

/-- The value of a numeral has its sign, also where it is zero or infinite. -/
theorem negative_value (k : Numeral) : k.value.negative = k.negative := by
  rw [value, Number.ofDecimal]
  split_ifs
  · rfl
  · rfl
  · rfl
  · exact Number.negative_ofRatio _ _ _
  · exact Number.negative_ofRatio _ _ _

/-- One more digit multiplies by ten and adds its value. -/
theorem decimalValue_concat (digits : List Char) (c : Char)
    : decimalValue (digits ++ [c]) = 10 * decimalValue digits + (c.toNat - '0'.toNat) := by
  simp [decimalValue]

/-- Digits have a value below the power of ten of their number, by induction from the last one on.
-/
theorem decimalValue_lt {digits : List Char} (each : ∀ c ∈ digits, c.isDigit = true)
    : decimalValue digits < 10 ^ digits.length := by
  induction digits using List.reverseRecOn with
  | nil => simp [decimalValue]
  | append_singleton digits c ih =>
      have lower := ih fun d member => each d (by simp [member])
      have digit : c.toNat - '0'.toNat ≤ 9 := by
        have last : c.toNat ≤ 57 := (Char.isDigit_iff_toNat.mp (each c (by simp))).2
        exact Nat.sub_le_of_le_add last
      rw [decimalValue_concat, List.length_append, List.length_singleton, Nat.pow_succ]
      omega

/-- The digits of a written mantissa are digits. -/
theorem isDigit_of_digitsWritten {mantissa digits : List Char} {fractionLength : Nat}
    (written : DigitsWritten mantissa digits fractionLength)
    : ∀ c ∈ digits, c.isDigit = true := by
  cases written with
  | whole isWhole => exact isWhole.each
  | point isWhole inFraction => exact List.forall_mem_append.mpr ⟨isWhole.each, inFraction⟩
  | fraction isFraction => exact isFraction.each

/-- The value of a written numeral is finite exactly if its magnitude is below the overflow
threshold.
-/
theorem isFinite_value_iff {word : List Char} {k : Numeral} (written : Written word k)
    : k.value.isFinite = true ↔ k.magnitude < Number.overflow := by
  obtain ⟨_, inDigits, _⟩ := written
  exact Number.isFinite_ofDecimal_iff _ _ (decimalValue_lt (isDigit_of_digitsWritten inDigits))

end Numeral

-----------------------------------------------------------------------------------------
-- Numbers that are printed and lexed again
-----------------------------------------------------------------------------------------

namespace Lexer

open Text

/-- A text that is a single word has one lexeme. -/
theorem lex_word {word : List Char} (isWord : IsWord word)
    : lex word = [⟨0, size word, .ok (Token.ofWord word)⟩] := by
  have lexed := lexFrom_gap_word isWord bounded_nil 0
  rwa [List.append_nil, Nat.zero_add] at lexed

/-- The text of a finite number has one lexeme, which is the number. -/
theorem lex_text_of_finite {n : Number} (finite : n.isFinite = true)
    : lex n.text.toList = [⟨0, n.text.utf8ByteSize, .ok (.number n)⟩] := by
  obtain ⟨k, numeral, _⟩ := Number.value_toChars finite
  rw [Number.text, String.toList_ofList, lex_word (Numeral.isWord_of_ofChars? numeral),
    Token.ofWord_number finite]
  rfl

/-- The words for infinities are symbols. -/
theorem lex_infinity (negative : Bool)
    : lex (Numeral.signed negative ['i', 'n', 'f'])
      = [⟨0, size (Numeral.signed negative ['i', 'n', 'f']),
          .ok (.symbol (String.ofList (Numeral.signed negative ['i', 'n', 'f'])))⟩] := by
  cases negative with
  | true => rfl
  | false => rfl

/-- A number token of a text is written as a numeral there. If the magnitude of the numeral is below
the overflow, the printed form of the number is one token of the same number. Otherwise it is the
name of an infinity, which is one token too, but a symbol.
-/
theorem number_printed {text : String} {lexeme : Lexeme} (member : lexeme ∈ lex text.toList)
    {n : Number} (isNumber : lexeme.content = .ok (.number n))
    : ∃ before word after k,
        text.toList = before ++ (word ++ after)
        ∧ lexeme.start = size before
        ∧ lexeme.stop = size before + size word
        ∧ Numeral.Written word k
        ∧ k.value = n
        ∧ (k.magnitude < Number.overflow
          → lex n.text.toList = [⟨0, n.text.utf8ByteSize, .ok (.number n)⟩])
        ∧ (Number.overflow ≤ k.magnitude
          → n.text = (if k.negative then "-inf" else "inf")
            ∧ lex n.text.toList = [⟨0, n.text.utf8ByteSize, .ok (.symbol n.text)⟩]) := by
  obtain ⟨front, back, splits⟩ := List.append_of_mem member
  obtain ⟨before, word, after, whole, start_eq, stop_eq, takes, _⟩ := exists_piece_of_lexeme splits
  rw [isNumber] at takes
  obtain ⟨k, numeral, rfl⟩ := takes.exists_numeral
  have written := Numeral.written_of_ofChars? numeral
  refine ⟨before, word, after, k, whole, start_eq, start_eq ▸ stop_eq, written, rfl, ?_, ?_⟩
  · intro small
    exact lex_text_of_finite ((Numeral.isFinite_value_iff written).mpr small)
  · intro large
    have infinite : k.value.isFinite = false := by
      rw [← Bool.not_eq_true, Numeral.isFinite_value_iff written]
      exact not_lt.mpr large
    have number : k.value.isNaN = false := Number.isNaN_ofDecimal _ _ _ _
    have chars := Number.toChars_infinite number infinite
    rw [Numeral.negative_value] at chars
    rw [Number.text, chars, String.toList_ofList]
    refine ⟨?_, lex_infinity k.negative⟩
    cases k.negative with
    | true => rfl
    | false => rfl

/-- A numeral that is too large, and one that is so small that it stands for the negative zero. -/
theorem number_printed_extremes
    : lex "1e400 -.5e-400".toList
        = [⟨0, 5, .ok (.number (.infinity false))⟩, ⟨6, 14, .ok (.number (.zero true))⟩]
      ∧ lex (Number.infinity false).text.toList = [⟨0, 3, .ok (.symbol "inf")⟩]
      ∧ lex (Number.zero true).text.toList = [⟨0, 2, .ok (.number (.zero true))⟩] := by
  have lexed
      : lex "1e400 -.5e-400".toList
        = [⟨0, 5, .ok (.number (.infinity false))⟩, ⟨6, 14, .ok (.number (.zero true))⟩] := by
    rfl
  have inText {lexeme : Lexeme} (among : lexeme ∈ [_, _]) : lexeme ∈ lex "1e400 -.5e-400".toList :=
    lexed ▸ among
  refine ⟨lexed, ?_, ?_⟩
  · obtain ⟨_, _, _, k, _, _, _, written, value, _, large⟩ := number_printed (inText (.head _)) rfl
    have overflows : Number.overflow ≤ k.magnitude := by
      rw [← not_lt, ← Numeral.isFinite_value_iff written, value]
      exact Bool.false_ne_true
    exact (large overflows).2
  · obtain ⟨_, _, _, k, _, _, _, written, value, small, _⟩ :=
      number_printed (inText (.tail _ (.head _))) rfl
    exact small ((Numeral.isFinite_value_iff written).mp (value ▸ rfl))

/-- Not every number is printed as a number: the text `1e400` is a number token, which is printed as
a symbol.
-/
theorem number_printed_as_symbol
    : lex "1e400".toList = [⟨0, 5, .ok (.number (.infinity false))⟩]
      ∧ (Number.infinity false).text = "inf"
      ∧ lex "inf".toList = [⟨0, 3, .ok (.symbol "inf")⟩] :=
  ⟨rfl, rfl, rfl⟩

end Lexer

end TypedScheme
