import TypeGloss.Text.CodePoint

/-!
# Numerals

The decimal and hexadecimal numerals that appear in messages and escapes.
-/

namespace TypeGloss

namespace Text

/-- The decimal numeral of a natural number, without leading zeros. -/
def decimal (n : Nat) : Text := (Nat.toDigits 10 n).map .scalar

/-- The decimal numeral of an integer, a minus sign first when it is negative. -/
def decimalInt : Int → Text
  | .ofNat n => decimal n
  | .negSucc n => .scalar '-' :: decimal (n + 1)

/-- The lower-case hexadecimal numeral of a number, filled with zeros up to a width. -/
def hexadecimal (width n : Nat) : Text :=
  let digits := Nat.toDigits 16 n
  (List.replicate (width - digits.length) '0' ++ digits).map .scalar

/-- The value of a hexadecimal digit of either case. -/
def hexDigit? : CodePoint → Option Nat
  | .scalar c =>
    if '0' ≤ c ∧ c ≤ '9' then some (c.toNat - '0'.toNat)
    else if 'a' ≤ c ∧ c ≤ 'f' then some (c.toNat - 'a'.toNat + 10)
    else if 'A' ≤ c ∧ c ≤ 'F' then some (c.toNat - 'A'.toNat + 10)
    else none
  | .surrogate _ => none

/-- The number that digit values spell in a base, most significant first. -/
def ofDigits (base : Nat) (digits : List Nat) : Nat :=
  digits.foldl (fun value digit => value * base + digit) 0

end Text

end TypeGloss
