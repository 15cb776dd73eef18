import TypeGloss.Text.CodePoint

/-!
# Decimal digits

The code points of the Unicode category Nd. They come in runs of ten that count from zero, so the
zeros alone determine the class and the value of each digit.
-/

namespace TypeGloss

namespace CodePoint

/-- The code points that denote zero, one for each run of ten digits, in ascending order. -/
def digitZeros : List Nat :=
  [0x30, 0x660, 0x6F0, 0x7C0, 0x966, 0x9E6, 0xA66, 0xAE6, 0xB66, 0xBE6, 0xC66, 0xCE6, 0xD66, 0xDE6,
    0xE50, 0xED0, 0xF20, 0x1040, 0x1090, 0x17E0, 0x1810, 0x1946, 0x19D0, 0x1A80, 0x1A90, 0x1B50,
    0x1BB0, 0x1C40, 0x1C50, 0xA620, 0xA8D0, 0xA900, 0xA9D0, 0xA9F0, 0xAA50, 0xABF0, 0xFF10, 0x104A0,
    0x10D30, 0x11066, 0x110F0, 0x11136, 0x111D0, 0x112F0, 0x11450, 0x114D0, 0x11650, 0x116C0,
    0x11730, 0x118E0, 0x11950, 0x11C50, 0x11D50, 0x11DA0, 0x16A60, 0x16AC0, 0x16B50, 0x1D7CE,
    0x1D7D8, 0x1D7E2, 0x1D7EC, 0x1D7F6, 0x1E140, 0x1E2F0, 0x1E950, 0x1FBF0]

/-- The value of a decimal digit of any script. -/
def decimalDigit? : CodePoint → Option Nat
  | .scalar c => (digitZeros.find? fun base => base ≤ c.toNat && c.toNat < base + 10).map (c.toNat - ·)
  | .surrogate _ => none

/-- Whether a code point is a decimal digit of some script. -/
def isDecimalDigit (c : CodePoint) : Bool := c.decimalDigit?.isSome

/-- The value of a decimal digit is below ten. -/
theorem decimalDigit?_lt {c : CodePoint} {d : Nat} (h : c.decimalDigit? = some d) : d < 10 := by
  cases c with
  | surrogate => simp [decimalDigit?] at h
  | scalar c =>
    simp only [decimalDigit?, Option.map_eq_some_iff] at h
    obtain ⟨base, hz, rfl⟩ := h
    have := List.find?_some hz
    simp only [Bool.and_eq_true, decide_eq_true_eq] at this
    omega

end CodePoint

end TypeGloss
