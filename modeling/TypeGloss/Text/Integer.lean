import TypeGloss.Text.DecimalDigit
import TypeGloss.Text.Numeral

/-!
# Reading integers

A whole number on the command line may have blanks around it, a sign in front and single underscores
between its digits, which may be the decimal digits of any script.
-/

namespace TypeGloss

namespace Integer

/-- The most digits that a number may have. -/
def maxDigits : Nat := 4300

/-- White space of any script. The separators of records and fields, from `U+001C` to `U+001F`, are
not white space. -/
def isBlank (c : CodePoint) : Bool :=
  let n := c.toNat
  (0x09 ≤ n && n ≤ 0x0D) || n = 0x20 || n = 0x85 || n = 0xA0 || n = 0x1680 ||
    (0x2000 ≤ n && n ≤ 0x200A) || n = 0x2028 || n = 0x2029 || n = 0x202F || n = 0x205F ||
    n = 0x3000

/-- A text without the blanks around it. -/
def trimmed (t : Text) : Text :=
  ((t.dropWhile isBlank).reverse.dropWhile isBlank).reverse

/-- The values of the digits behind a digit, with at most one underscore in front of each. -/
def digitsBehind : Text → Option (List Nat)
  | [] => some []
  | .scalar '_' :: c :: rest => do return (← c.decimalDigit?) :: (← digitsBehind rest)
  | c :: rest => do return (← c.decimalDigit?) :: (← digitsBehind rest)

/-- The values of digits with single underscores between them. -/
def digits? : Text → Option (List Nat)
  | [] => none
  | c :: rest => do return (← c.decimalDigit?) :: (← digitsBehind rest)

/-- The value of digits, if they are not too many. -/
def magnitude? (t : Text) : Option Nat :=
  match digits? t with
  | some digits => if maxDigits < digits.length then none else some (Text.ofDigits 10 digits)
  | none => none

/-- The whole number that a text spells. -/
def ofText? (t : Text) : Option Int :=
  match trimmed t with
  | .scalar '-' :: rest => (magnitude? rest).map fun n => -(n : Int)
  | .scalar '+' :: rest => (magnitude? rest).map fun n => (n : Int)
  | rest => (magnitude? rest).map fun n => (n : Int)

end Integer

end TypeGloss
