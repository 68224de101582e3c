/-!
Numbers of the language: binary floating point in double precision, held as sign, exponent and
fraction. Rounding a quotient of naturals to the nearest number is exact arithmetic on `Nat`.
-/

namespace TypedScheme

/-- Two to the power of 52: so many fractions there are, and so much a leading bit counts. -/
abbrev Number.fractionCount : Nat := 0x10000000000000

/-- The three fields of a double. An exponent field of 0 marks zero and the subnormal numbers, one
of 2047 the infinities (fraction 0) and the values that are no number. -/
structure Number where
  negative : Bool
  exponent : Fin 2048
  fraction : Fin Number.fractionCount
deriving DecidableEq, Repr

namespace Number

def ofBits (bits : UInt64) : Number :=
  let n := bits.toNat
  ⟨n >>> 63 = 1, Fin.ofNat 2048 (n / fractionCount), Fin.ofNat fractionCount n⟩

def zero (negative : Bool) : Number := ⟨negative, 0, 0⟩

def infinity (negative : Bool) : Number := ⟨negative, 2047, 0⟩

def isNaN (n : Number) : Bool := n.exponent = 2047 && n.fraction ≠ 0

def isInfinite (n : Number) : Bool := n.exponent = 2047 && n.fraction = 0

def isFinite (n : Number) : Bool := n.exponent ≠ 2047

def isZero (n : Number) : Bool := n.exponent = 0 && n.fraction = 0

/-- Numerical equality: the two zeros are equal, and a value that is no number equals nothing. -/
def same (a b : Number) : Bool :=
  !a.isNaN && !b.isNaN && (a = b || (a.isZero && b.isZero))

/-- The absolute value of a finite number is `significand * 2 ^ scale`. -/
def significand (n : Number) : Nat :=
  if n.exponent = 0 then n.fraction else fractionCount + n.fraction

def scale (n : Number) : Int := max (n.exponent : Int) 1 - 1075

/-- The quotient rounded to the nearest natural, a half to the even neighbour. -/
def roundDiv (num den : Nat) : Nat :=
  let q := num / den
  let r := num % den
  if den < 2 * r ∨ (den = 2 * r ∧ q % 2 = 1) then q + 1 else q

/-- `num / den` divided by a power of two, again as a quotient of naturals. -/
def shiftRatio (num den : Nat) (power : Int) : Nat × Nat :=
  if 0 ≤ power then (num, den <<< power.toNat) else (num <<< (-power).toNat, den)

/-- The exponent of the largest power of two that is at most `num / den`, both positive. -/
def floorLog2 (num den : Nat) : Int :=
  let guess : Int := num.log2 - den.log2
  let (n, d) := shiftRatio num den guess
  if d ≤ n then guess else guess - 1

/-- The number with significand `m` at a scale of at least -1074, where `m` has at most 53 bits and
fewer only at scale -1074. A scale above 971 overflows to an infinity. -/
def assemble (negative : Bool) (m : Nat) (scale : Int) : Number :=
  if 971 < scale then infinity negative
  else if m < fractionCount then ⟨negative, 0, Fin.ofNat fractionCount m⟩
  else ⟨negative, Fin.ofNat 2048 (scale + 1075).toNat, Fin.ofNat fractionCount m⟩

/-- The number nearest to `num / den`, a half to the number with an even significand. -/
def ofRatio (negative : Bool) (num den : Nat) : Number :=
  if num = 0 then zero negative
  else
    let scale := max (floorLog2 num den - 52) (-1074)
    let (n, d) := shiftRatio num den scale
    let m := roundDiv n d
    if m = 2 * fractionCount then assemble negative fractionCount (scale + 1)
    else assemble negative m scale

/-- The number nearest to `digits * 10 ^ power`, where `digits` has at most `count` digits. A value
of 10^311 or more is beyond every finite number, one below 10^-330 is nearer to zero than to any
other number. -/
def ofDecimal (negative : Bool) (digits count : Nat) (power : Int) : Number :=
  if digits = 0 then zero negative
  else if 310 < power then infinity negative
  else if power + count < -330 then zero negative
  else if 0 ≤ power then ofRatio negative (digits * Nat.pow 10 power.toNat) 1
  else ofRatio negative digits (Nat.pow 10 (-power).toNat)

end Number

end TypedScheme
