import TypedScheme.Number.Basic

/-!
The shortest decimal of a number: among the decimals that read back as the number, those with the
fewest digits, and of these the one nearest to it. It is written without an exponent.
-/

namespace TypedScheme

/-- A positive decimal `coefficient * 10 ^ power`. -/
structure Decimal where
  coefficient : Nat
  power : Int
deriving DecidableEq, Repr

namespace Decimal

/-- Positional notation, with a zero before a leading point and no trailing zeros behind it. -/
def positional (d : Decimal) : List Char :=
  let digits := Nat.toDigits 10 d.coefficient
  if 0 ≤ d.power then digits ++ List.replicate d.power.toNat '0'
  else
    let places := (-d.power).toNat
    if places < digits.length then
      digits.take (digits.length - places) ++ '.' :: digits.drop (digits.length - places)
    else '0' :: '.' :: (List.replicate (places - digits.length) '0' ++ digits)

end Decimal

namespace Number

/-- The reals that round to a positive number, in quarters of the unit of its last place. The ends
belong to the interval when the significand is even. -/
structure Neighbourhood where
  low : Nat
  value : Nat
  high : Nat
  closed : Bool

/-- Below a power of two numbers are twice as dense, so the lower end is nearer there. -/
def neighbourhood (n : Number) : Neighbourhood :=
  let m := n.significand
  let below := if n.fraction.val = 0 ∧ 1 < n.exponent.val then 1 else 2
  ⟨4 * m - below, 4 * m, 4 * m + 2, m % 2 = 0⟩

/-- The multiple of `10 ^ power` in the neighbourhood that is nearest to the value, if there is one;
of two at the same distance the larger. `quarter` is the exponent of two of the interval's unit. -/
def multipleAt? (around : Neighbourhood) (quarter power : Int) : Option Nat :=
  let (up, down) := if 0 ≤ quarter then (1 <<< quarter.toNat, 1) else (1, 1 <<< (-quarter).toNat)
  let (grid, fine) :=
    if 0 ≤ power then (Nat.pow 10 power.toNat * down, 1) else (down, Nat.pow 10 (-power).toNat)
  let unit := up * fine
  let value := around.value * unit
  let lower := value / grid
  let within (multiple : Nat) : Bool :=
    let point := multiple * grid
    let low := around.low * unit
    let high := around.high * unit
    if around.closed then low ≤ point && point ≤ high else low < point && point < high
  match within lower, within (lower + 1) with
  | true, true =>
      if value - lower * grid < (lower + 1) * grid - value then some lower else some (lower + 1)
  | true, false => some lower
  | false, true => some (lower + 1)
  | false, false => none

/-- Tries the powers of ten from `power` downwards. -/
def coarsest (around : Neighbourhood) (quarter : Int) : Nat → Int → Decimal
  | 0, power => ⟨0, power⟩
  | steps + 1, power =>
      match multipleAt? around quarter power with
      | some coefficient => ⟨coefficient, power⟩
      | none => coarsest around quarter steps (power - 1)

/-- A finite number is a multiple of 10^-1074, so the search always ends with a hit. -/
def shortest (n : Number) : Decimal :=
  let quarter := n.scale - 2
  let bits : Int := (4 * n.significand).log2 + 1 + quarter
  let top : Int := if 0 ≤ bits then bits * 30103 / 100000 + 1 else bits * 30102 / 100000 + 1
  coarsest n.neighbourhood quarter (top + 1074 + 1).toNat top

/-- The text of a number: the digits of its shortest decimal, without exponent. -/
def toChars (n : Number) : List Char :=
  if n.isNaN then ['N', 'a', 'N']
  else
    let magnitude :=
      if n.isInfinite then ['i', 'n', 'f']
      else if n.isZero then ['0']
      else n.shortest.positional
    if n.negative then '-' :: magnitude else magnitude

def text (n : Number) : String := String.ofList n.toChars

end Number

end TypedScheme
