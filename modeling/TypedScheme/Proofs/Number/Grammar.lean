import TypedScheme.Number.Numeral

/-! The grammar of numerals.
Main statement: a text is read as a numeral exactly if it is a written form of the numeral: an
optional sign, digits with an optional fraction or a fraction alone, and an optional exponent.
-/

namespace TypedScheme

namespace Numeral

/-- Digits, one at least. -/
structure IsDigits (cs : List Char) : Prop where
  nonempty : cs ≠ []
  each : ∀ c ∈ cs, c.isDigit = true

/-- The optional sign says whether a number is negative. -/
inductive SignWritten : List Char → Bool → Prop
  | none : SignWritten [] false
  | plus : SignWritten ['+'] false
  | minus : SignWritten ['-'] true

/-- The text of the digits, of which the last ones, as many as told, are a fraction. -/
inductive DigitsWritten : List Char → List Char → Nat → Prop
  | whole {digits : List Char} (isWhole : IsDigits digits) : DigitsWritten digits digits 0
  | point {whole fraction : List Char} (isWhole : IsDigits whole)
    (inFraction : ∀ c ∈ fraction, c.isDigit = true)
    : DigitsWritten (whole ++ '.' :: fraction) (whole ++ fraction) fraction.length
  | fraction {digits : List Char} (isFraction : IsDigits digits)
    : DigitsWritten ('.' :: digits) digits digits.length

/-- The value of an exponent. -/
def signedValue (negative : Bool) (digits : List Char) : Int :=
  if negative then -(decimalValue digits : Int) else (decimalValue digits : Int)

/-- The optional exponent. -/
inductive ExponentWritten : List Char → Int → Prop
  | none : ExponentWritten [] 0
  | some {mark : Char} {sign digits : List Char} {negative : Bool}
    (isMark : mark = 'e' ∨ mark = 'E') (inSign : SignWritten sign negative)
    (isDigits : IsDigits digits)
    : ExponentWritten (mark :: (sign ++ digits)) (signedValue negative digits)

/-- The text is a written form of the numeral. -/
inductive Written : List Char → Numeral → Prop
  | mk {sign mantissa exponent digits : List Char} {negative : Bool} {fractionLength : Nat}
    {power : Int} (inSign : SignWritten sign negative)
    (inDigits : DigitsWritten mantissa digits fractionLength)
    (inExponent : ExponentWritten exponent power)
    : Written (sign ++ (mantissa ++ exponent)) ⟨negative, digits, fractionLength, power⟩

-----------------------------------------------------------------------------------------
-- Signs, digits and exponents
-----------------------------------------------------------------------------------------

/-- What is split off a text in front is a written sign or nothing. -/
theorem splitSign_written (cs : List Char)
    : ∃ sign, SignWritten sign (splitSign cs).1 ∧ cs = sign ++ (splitSign cs).2 := by
  fun_cases splitSign cs with
  | case1 rest => exact ⟨['-'], .minus, rfl⟩
  | case2 rest => exact ⟨['+'], .plus, rfl⟩
  | case3 => exact ⟨[], .none, rfl⟩

/-- A sign is split off where no other sign follows it. -/
theorem splitSign_of_written {sign rest : List Char} {negative : Bool}
    (written : SignWritten sign negative) (noPlus : rest.head? ≠ some '+')
    (noMinus : rest.head? ≠ some '-')
    : splitSign (sign ++ rest) = (negative, rest) := by
  cases written with
  | plus | minus => rfl
  | none =>
      rw [List.nil_append]
      fun_cases splitSign rest with
      | case1 => simp at noMinus
      | case2 => simp at noPlus
      | case3 => rfl

/-- A text is read as digits exactly if it consists of digits. -/
theorem wholeDigits?_eq_some_iff {cs digits : List Char}
    : wholeDigits? cs = some digits ↔ IsDigits cs ∧ digits = cs := by
  have isDigits : IsDigits cs ↔ ¬ (cs.isEmpty || !cs.all Char.isDigit) = true := by
    constructor
    · rintro ⟨nonempty, each⟩
      simpa [nonempty] using each
    · intro right
      simp only [Bool.or_eq_true, Bool.not_eq_true', not_or, Bool.not_eq_false,
        List.isEmpty_iff, List.all_eq_true] at right
      exact ⟨right.1, right.2⟩
  rw [wholeDigits?, isDigits]
  split
  · next wrong => simp [wrong]
  · next right => simp [right, eq_comm]

/-- Digits are split off where no other digit follows them. -/
theorem span_digits {digits rest : List Char} (each : ∀ c ∈ digits, c.isDigit = true)
    (stops : ∀ c ∈ rest.head?, c.isDigit = false)
    : (digits ++ rest).takeWhile Char.isDigit = digits
      ∧ (digits ++ rest).dropWhile Char.isDigit = rest := by
  rw [List.takeWhile_append_of_pos each, List.dropWhile_append_of_pos each]
  cases rest with
  | nil => simp
  | cons c rest => simp [stops c rfl]

/-- Digits begin with a digit, whatever follows them. -/
theorem head_of_digits {digits : List Char} (isDigits : IsDigits digits) (rest : List Char)
    : ∃ c ∈ (digits ++ rest).head?, c.isDigit = true := by
  obtain ⟨c, cs, rfl⟩ := List.exists_cons_of_ne_nil isDigits.nonempty
  exact ⟨c, rfl, isDigits.each c (by simp)⟩

/-- No text that begins with a digit or a point begins with a sign. -/
theorem ne_sign_of_head {cs : List Char} (head : ∃ c ∈ cs.head?, c.isDigit = true ∨ c = '.')
    : cs.head? ≠ some '+' ∧ cs.head? ≠ some '-' := by
  obtain ⟨c, here, isStart⟩ := head
  rw [Option.mem_def.mp here]
  constructor
  · rintro ⟨⟩
    simp [Char.isDigit] at isStart
  · rintro ⟨⟩
    simp [Char.isDigit] at isStart

/-- An exponent is read exactly if it is written so. -/
theorem exponent?_eq_some_iff {cs : List Char} {power : Int}
    : exponent? cs = some power ↔ ExponentWritten cs power := by
  constructor
  · intro read
    cases cs with
    | nil =>
        cases read
        exact .none
    | cons mark rest =>
        rw [exponent?] at read
        split at read
        · next isMark =>
            obtain ⟨sign, inSign, splits⟩ := splitSign_written rest
            generalize splitSign rest = parts at read inSign splits
            obtain ⟨digits, whole, rfl⟩ := Option.map_eq_some_iff.mp read
            obtain ⟨isDigits, rfl⟩ := wholeDigits?_eq_some_iff.mp whole
            rw [splits]
            exact .some isMark inSign isDigits
        · cases read
  · intro written
    cases written with
    | none => rfl
    | @some mark sign digits negative isMark inSign isDigits =>
        obtain ⟨c, here, digit⟩ := head_of_digits isDigits []
        rw [List.append_nil] at here
        obtain ⟨noPlus, noMinus⟩ := ne_sign_of_head ⟨c, here, .inl digit⟩
        have whole := wholeDigits?_eq_some_iff.mpr ⟨isDigits, rfl⟩
        rw [exponent?, if_pos isMark, splitSign_of_written inSign noPlus noMinus]
        simp only [whole, Option.map_some]
        rfl

/-- An exponent begins neither with a digit nor with a point. -/
theorem stops_of_exponentWritten {cs : List Char} {power : Int} (written : ExponentWritten cs power)
    : ∀ c ∈ cs.head?, c.isDigit = false ∧ c ≠ '.' := by
  cases written with
  | none => nofun
  | some isMark =>
      rintro c ⟨⟩
      rcases isMark with rfl | rfl
      · decide
      · decide

-----------------------------------------------------------------------------------------
-- Numerals
-----------------------------------------------------------------------------------------

/-- Digits on either side of a point, if there are any. -/
theorem digitsWritten_point {whole fraction : List Char} (inWhole : ∀ c ∈ whole, c.isDigit = true)
    (inFraction : ∀ c ∈ fraction, c.isDigit = true)
    (some : ¬ (whole.isEmpty && fraction.isEmpty) = true)
    : DigitsWritten (whole ++ '.' :: fraction) (whole ++ fraction) fraction.length := by
  by_cases empty : whole = []
  · subst empty
    exact .fraction ⟨by simpa using some, inFraction⟩
  · exact .point ⟨empty, inWhole⟩ inFraction

/-- A numeral that was read is written so. -/
theorem written_of_ofChars? {cs : List Char} {k : Numeral} (read : ofChars? cs = some k)
    : Written cs k := by
  obtain ⟨sign, inSign, splits⟩ := splitSign_written cs
  rw [ofChars?] at read
  generalize splitSign cs = parts at read inSign splits
  obtain ⟨negative, unsigned⟩ := parts
  dsimp only at read inSign splits
  have each (cs : List Char) : ∀ c ∈ cs.takeWhile Char.isDigit, c.isDigit = true :=
    List.all_eq_true.mp List.all_takeWhile
  rw [splits, ← @List.takeWhile_append_dropWhile _ Char.isDigit unsigned]
  split at read
  · next rest point =>
      split at read
      · cases read
      · next some =>
          obtain ⟨power, readExponent, rfl⟩ := Option.map_eq_some_iff.mp read
          have inDigits := digitsWritten_point (each unsigned) (each rest) some
          have written := Written.mk inSign inDigits (exponent?_eq_some_iff.mp readExponent)
          rw [List.append_assoc, List.cons_append, List.takeWhile_append_dropWhile] at written
          rwa [point]
  · split at read
    · cases read
    · next some =>
        obtain ⟨power, readExponent, rfl⟩ := Option.map_eq_some_iff.mp read
        have isWhole : IsDigits (unsigned.takeWhile Char.isDigit) :=
          ⟨by simpa using some, each unsigned⟩
        exact .mk inSign (.whole isWhole) (exponent?_eq_some_iff.mp readExponent)

/-- Written digits begin with a digit or a point, whatever follows them. -/
theorem head_of_digitsWritten {mantissa digits : List Char} {fractionLength : Nat}
    (written : DigitsWritten mantissa digits fractionLength) (rest : List Char)
    : ∃ c ∈ (mantissa ++ rest).head?, c.isDigit = true ∨ c = '.' := by
  cases written with
  | whole isWhole =>
      obtain ⟨c, here, digit⟩ := head_of_digits isWhole rest
      exact ⟨c, here, .inl digit⟩
  | @point whole fraction isWhole =>
      obtain ⟨c, here, digit⟩ := head_of_digits isWhole ('.' :: fraction ++ rest)
      rw [← List.append_assoc] at here
      exact ⟨c, here, .inl digit⟩
  | fraction => exact ⟨'.', rfl, .inr rfl⟩

/-- What follows the sign of a numeral with a point. -/
theorem ofChars?_point {cs whole fraction exponent : List Char} {negative : Bool} {power : Int}
    (signed : splitSign cs = (negative, whole ++ '.' :: fraction ++ exponent))
    (inWhole : ∀ c ∈ whole, c.isDigit = true) (inFraction : ∀ c ∈ fraction, c.isDigit = true)
    (some : ¬ (whole.isEmpty && fraction.isEmpty) = true)
    (inExponent : ExponentWritten exponent power)
    : ofChars? cs = .some ⟨negative, whole ++ fraction, fraction.length, power⟩ := by
  have point : ∀ c ∈ ('.' :: (fraction ++ exponent)).head?, c.isDigit = false := by
    rintro c ⟨⟩
    rfl
  have stops c (head : c ∈ exponent.head?) := (stops_of_exponentWritten inExponent c head).1
  obtain ⟨takenWhole, droppedWhole⟩ := span_digits inWhole point
  obtain ⟨takenFraction, droppedFraction⟩ := span_digits inFraction stops
  rw [ofChars?, signed]
  simp only [List.append_assoc, List.cons_append, takenWhole, droppedWhole, takenFraction,
    droppedFraction, exponent?_eq_some_iff.mpr inExponent, Option.map_some, if_neg some]

/-- A written numeral is read. -/
theorem ofChars?_of_written {cs : List Char} {k : Numeral} (written : Written cs k)
    : ofChars? cs = some k := by
  obtain @⟨sign, mantissa, exponent, digits, negative, fractionLength, power, inSign, inDigits,
    inExponent⟩ := written
  obtain ⟨noPlus, noMinus⟩ := ne_sign_of_head (head_of_digitsWritten inDigits exponent)
  have signed := splitSign_of_written inSign noPlus noMinus
  cases inDigits with
  | point isWhole inFraction =>
      exact ofChars?_point signed isWhole.each inFraction (by simp [isWhole.nonempty]) inExponent
  | fraction isFraction =>
      have nothing : ∀ c ∈ ([] : List Char), c.isDigit = true := by simp
      exact ofChars?_point signed nothing isFraction.each (by simp [isFraction.nonempty]) inExponent
  | whole isWhole =>
      have stops c (head : c ∈ exponent.head?) := (stops_of_exponentWritten inExponent c head).1
      obtain ⟨taken, dropped⟩ := span_digits isWhole.each stops
      rw [ofChars?, signed]
      simp only [taken, dropped]
      split
      · next rest =>
          have noPoint := (stops_of_exponentWritten inExponent '.' rfl).2
          exact absurd rfl noPoint
      · simp [isWhole.nonempty, exponent?_eq_some_iff.mpr inExponent]

/-- A numeral is read exactly from the texts that it is written as. -/
theorem ofChars?_eq_some_iff {cs : List Char} {k : Numeral}
    : ofChars? cs = some k ↔ Written cs k :=
  ⟨written_of_ofChars?, ofChars?_of_written⟩

end Numeral

end TypedScheme
