import TypedScheme.Number.Basic

/-!
Numerals: the written form of numbers. A numeral is an optional sign, digits with an optional
fraction (or a fraction alone), and an optional signed exponent.
-/

namespace TypedScheme

/-- The parts of a written number; `digits` are those before and after the point together. -/
structure Numeral where
  negative : Bool
  digits : List Char
  fractionLength : Nat
  exponent : Int
deriving DecidableEq, Repr

namespace Numeral

def decimalValue (digits : List Char) : Nat :=
  digits.foldl (fun value c => 10 * value + (c.toNat - '0'.toNat)) 0

/-- An optional sign, and what follows it. -/
def splitSign : List Char → Bool × List Char
  | '-' :: rest => (true, rest)
  | '+' :: rest => (false, rest)
  | rest => (false, rest)

/-- A run of digits that must be all of the text and not empty. -/
def wholeDigits? (cs : List Char) : Option (List Char) :=
  if cs.isEmpty || !cs.all Char.isDigit then none else some cs

/-- The exponent part, which is all of the text: nothing, or `e` and signed digits. -/
def exponent? : List Char → Option Int
  | [] => some 0
  | c :: rest =>
      if c = 'e' ∨ c = 'E' then
        let (negative, digits) := splitSign rest
        (wholeDigits? digits).map fun digits =>
          if negative then -(decimalValue digits : Int) else (decimalValue digits : Int)
      else none

/-- Reads a text that is a numeral from its first to its last character. -/
def ofChars? (cs : List Char) : Option Numeral :=
  let (negative, unsigned) := splitSign cs
  let whole := unsigned.takeWhile Char.isDigit
  match unsigned.dropWhile Char.isDigit with
  | '.' :: rest =>
      let fraction := rest.takeWhile Char.isDigit
      if whole.isEmpty && fraction.isEmpty then none
      else (exponent? (rest.dropWhile Char.isDigit)).map fun exponent =>
        ⟨negative, whole ++ fraction, fraction.length, exponent⟩
  | rest =>
      if whole.isEmpty then none
      else (exponent? rest).map fun exponent => ⟨negative, whole, 0, exponent⟩

/-- The number nearest to what the numeral says. -/
def value (n : Numeral) : Number :=
  Number.ofDecimal n.negative (decimalValue n.digits) n.digits.length (n.exponent - n.fractionLength)

end Numeral

end TypedScheme
