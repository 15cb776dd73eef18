/-!
# Decimal numbers as binary floating point

The double nearest to a decimal number, ties going to the even significand, computed exactly on
natural numbers. A double is given by its 64 bits.
-/

namespace TypeGloss

namespace Binary64

/-- The bits of positive infinity. -/
def infinity : Nat := 0x7FF0000000000000

/-- The quotient of two numbers rounded to the nearest integer, a half going to the even one. -/
def roundDiv (num den : Nat) : Nat :=
  let quotient := num / den
  let twice := 2 * (num % den)
  if twice < den then quotient
  else if den < twice then quotient + 1
  else quotient + quotient % 2

/-- The greatest `q` with `2 ^ q ≤ num / den`, for positive numbers. -/
def floorLog2 (num den : Nat) : Int :=
  let q : Int := (num.log2 : Int) - (den.log2 : Int)
  let fits : Bool := match q with
    | .ofNat k => den * Nat.pow 2 k ≤ num
    | .negSucc k => den ≤ num * Nat.pow 2 (k + 1)
  if fits then q else q - 1

/-- The bits of the double nearest to a positive fraction. The unit in the last place is a power of
two that leaves a significand of 53 bits, but never less than the smallest subnormal. -/
def ofFraction (num den : Nat) : Nat :=
  let unit : Int := max (floorLog2 num den - 52) (-1074)
  let significand := match unit with
    | .ofNat k => roundDiv num (den * Nat.pow 2 k)
    | .negSucc k => roundDiv (num * Nat.pow 2 (k + 1)) den
  min ((unit + 1074).toNat * 0x10000000000000 + significand) infinity

/-- The bits of the double nearest to `mantissa * 10 ^ exponent`. Exponents far outside the range of
doubles are decided by the number of digits alone. -/
def ofDecimal (mantissa : Nat) (exponent : Int) : Nat :=
  if mantissa = 0 then 0
  else
    let magnitude : Int := exponent + (Nat.toDigits 10 mantissa).length
    if 400 < magnitude then infinity
    else if magnitude < -400 then 0
    else match exponent with
      | .ofNat k => ofFraction (mantissa * Nat.pow 10 k) 1
      | .negSucc k => ofFraction mantissa (Nat.pow 10 (k + 1))

end Binary64

end TypeGloss
