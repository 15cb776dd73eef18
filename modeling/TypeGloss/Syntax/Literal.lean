import TypeGloss.Number.Binary64
import TypeGloss.Text.DecimalDigit
import TypeGloss.Text.Numeral

/-!
# Literals

The value of a literal is a function of its spelling. A few spellings that scan well have no value:
an escape beyond the last code point, and a decimal integer with too many digits.
-/

namespace TypeGloss

/-- Why a literal has no value. -/
inductive LiteralFault where
  /-- A braced escape, without its backslash, whose number is no code point. -/
  | noCodePoint (escape : Text)
  /-- A decimal integer with more digits than are read. -/
  | tooManyDigits (count : Nat)
  deriving DecidableEq, Repr

/-- The value of a number. -/
inductive NumberValue where
  /-- An integer of any size. -/
  | integer (n : Nat)
  /-- A double, by its bits. -/
  | double (bits : Nat)
  deriving DecidableEq, Repr

namespace Literal

/-- The most digits that a decimal integer may have. -/
def maxDigits : Nat := 4300

/-- What a backslash takes with it: how many code points behind it, and the text they denote. -/
structure Escape where
  /-- The number of code points behind the backslash. -/
  length : Nat
  /-- The text denoted. -/
  value : Except LiteralFault Text

/-- The text that one code point behind a backslash denotes. A line feed denotes nothing, some
letters denote a control character, and everything else denotes itself. -/
def simpleEscape (c : CodePoint) : Text :=
  match c with
  | .scalar 'n' => [.scalar '\n']
  | .scalar 't' => [.scalar '\t']
  | .scalar 'r' => [.scalar '\r']
  | .scalar 'b' => [.scalar '\x08']
  | .scalar 'f' => [.scalar '\x0c']
  | .scalar 'v' => [.scalar '\x0b']
  | .scalar '0' => [.scalar '\x00']
  | .scalar '\n' => []
  | c => [c]

/-- The number that exactly `n` hexadecimal digits at the front of a text spell. -/
def hexNumber? (n : Nat) (t : Text) : Option Nat :=
  let digits := (t.take n).filterMap Text.hexDigit?
  if digits.length = n then some (Text.ofDigits 16 digits) else none

/-- The text of one code point, or a fault if the number is none. -/
def pointText (escape : Text) (n : Nat) : Except LiteralFault Text :=
  match CodePoint.ofNat? n with
  | some c => .ok [c]
  | none => .error (.noCodePoint escape)

/-- An escape `u` with hexadecimal digits in braces. -/
def bracedEscape? : Text → Option Escape
  | .scalar 'u' :: .scalar '\x7b' :: rest =>
    let digits := rest.takeWhile fun c => (Text.hexDigit? c).isSome
    match digits, rest.drop digits.length with
    | _ :: _, .scalar '\x7d' :: _ =>
      let escape := "u\x7b" ++ digits ++ "\x7d"
      some ⟨digits.length + 3, pointText escape (Text.ofDigits 16 (digits.filterMap Text.hexDigit?))⟩
    | _, _ => none
  | _ => none

/-- An escape with a fixed number of hexadecimal digits: four behind `u`, two behind `x`. -/
def fixedEscape? : Text → Option Escape
  | .scalar 'u' :: rest => (hexNumber? 4 rest).map fun n => ⟨5, pointText (rest.take 4) n⟩
  | .scalar 'x' :: rest => (hexNumber? 2 rest).map fun n => ⟨3, pointText (rest.take 2) n⟩
  | _ => none

/-- What a backslash takes with it from the code points behind it; nothing at the end of a text. -/
def escape? (rest : Text) : Option Escape :=
  ((bracedEscape? rest).or (fixedEscape? rest)).or <|
    match rest with
    | .scalar '\r' :: .scalar '\n' :: _ => some ⟨2, .ok []⟩
    | c :: _ => some ⟨1, .ok (simpleEscape c)⟩
    | [] => none

/-- Replaces escapes by what they denote. The first `skip` code points belong to the escape read
last. -/
def unescapeFrom (skip : Nat) : Text → Except LiteralFault Text
  | [] => .ok []
  | c :: rest =>
    match skip with
    | skip + 1 => unescapeFrom skip rest
    | 0 =>
      match if c = .scalar '\\' then escape? rest else none with
      | some escape =>
        match escape.value with
        | .ok value => (unescapeFrom escape.length rest).map (value ++ ·)
        | .error fault => .error fault
      | none => (unescapeFrom 0 rest).map (c :: ·)

/-- The text that a quoted string denotes. -/
def stringValue (raw : Text) : Except LiteralFault Text := unescapeFrom 0 raw.tail.dropLast

/-- The text that a quoted string denotes; one without a value stands for its own spelling. -/
def stringText (raw : Text) : Text :=
  match stringValue raw with
  | .ok value => value
  | .error _ => raw

/-- The base that a number announces behind a leading zero. -/
def radix? : Text → Option Nat
  | .scalar '0' :: .scalar mark :: _ =>
    if mark = 'x' ∨ mark = 'X' then some 16
    else if mark = 'b' ∨ mark = 'B' then some 2
    else if mark = 'o' ∨ mark = 'O' then some 8
    else none
  | _ => none

/-- Whether a code point is the letter of an exponent. -/
def isExponentMark (c : CodePoint) : Bool := c = .scalar 'e' || c = .scalar 'E'

/-- The digit values of a text, other code points left out. -/
def digitValues (t : Text) : List Nat := t.filterMap CodePoint.decimalDigit?

/-- The exponent that stands behind its letter. -/
def exponentValue (t : Text) : Int :=
  let size : Int := Text.ofDigits 10 (digitValues t)
  if t.head? = some (.scalar '-') then -size else size

/-- The double that a number with a point or an exponent denotes. -/
def doubleValue (raw : Text) : Nat :=
  let mantissa := raw.takeWhile (!isExponentMark ·)
  let exponent := exponentValue (raw.drop (mantissa.length + 1))
  let fraction := mantissa.dropWhile (· ≠ .scalar '.')
  Binary64.ofDecimal (Text.ofDigits 10 (digitValues mantissa))
    (exponent - (digitValues fraction).length)

/-- The value of a number: an integer in its base, or a double if it has a point or an exponent. -/
def numberValue (raw : Text) : Except LiteralFault NumberValue :=
  match radix? raw with
  | some base => .ok (.integer (Text.ofDigits base ((raw.drop 2).filterMap Text.hexDigit?)))
  | none =>
    if raw.any fun c => c = .scalar '.' || isExponentMark c then .ok (.double (doubleValue raw))
    else
      let digits := digitValues raw
      if maxDigits < digits.length then .error (.tooManyDigits digits.length)
      else .ok (.integer (Text.ofDigits 10 digits))

/-- The fault of a quoted string, if it has no value. -/
def stringFault? (raw : Text) : Option LiteralFault :=
  match stringValue raw with
  | .ok _ => none
  | .error fault => some fault

/-- The fault of a number, if it has no value. -/
def numberFault? (raw : Text) : Option LiteralFault :=
  match numberValue raw with
  | .ok _ => none
  | .error fault => some fault

end Literal

end TypeGloss
