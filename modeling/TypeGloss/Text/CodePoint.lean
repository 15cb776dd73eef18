/-!
# Code points and text

Text is a list of code points. A code point is a Unicode scalar value or a lone surrogate: an
escape inside a quoted string may name a surrogate, and the text it denotes keeps it unjoined.
-/

namespace TypeGloss

/-- A code point: a scalar value, or the surrogate at an offset from `U+D800`. -/
inductive CodePoint where
  /-- A Unicode scalar value. -/
  | scalar (c : Char)
  /-- The surrogate `U+D800 + offset`. -/
  | surrogate (offset : Fin 2048)
  deriving DecidableEq, Repr

/-- A sequence of code points. Positions and lengths count code points. -/
abbrev Text := List CodePoint

namespace CodePoint

instance : Coe Char CodePoint := ⟨.scalar⟩

/-- The number of a code point. -/
def toNat : CodePoint → Nat
  | .scalar c => c.toNat
  | .surrogate offset => 0xD800 + offset.val

/-- The code point with a given number, up to `U+10FFFF`. -/
def ofNat? (n : Nat) : Option CodePoint :=
  if h : n - 0xD800 < 2048 ∧ 0xD800 ≤ n then some (.surrogate ⟨n - 0xD800, h.1⟩)
  else if n ≤ 0x10FFFF then some (.scalar (Char.ofNat n))
  else none

/-- A code point is a surrogate when no UTF-8 sequence encodes it. -/
def isSurrogate : CodePoint → Bool
  | .scalar _ => false
  | .surrogate _ => true

/-- Whether the code point is a scalar value that satisfies a test on characters. -/
def satisfies (p : Char → Bool) : CodePoint → Bool
  | .scalar c => p c
  | .surrogate _ => false

end CodePoint

namespace Text

/-- The text of a string. -/
def ofString (s : String) : Text := s.toList.map .scalar

instance : Coe String Text := ⟨ofString⟩

/-- The string with the same code points; surrogates, which no string holds, become `U+FFFD`. -/
def toString (t : Text) : String :=
  String.ofList <| t.map fun
    | .scalar c => c
    | .surrogate _ => Char.ofNat 0xFFFD

/-- The order of texts by code point number, a proper beginning first. -/
def le : Text → Text → Bool
  | [], _ => true
  | _ :: _, [] => false
  | a :: s, b :: t => a.toNat < b.toNat || (a.toNat == b.toNat && le s t)

/-- Texts in ascending order; equal texts stay as they were. -/
def sort (ts : List Text) : List Text := ts.mergeSort le

/-- The pieces in order with a separator between neighbours. -/
def join (separator : Text) : List Text → Text
  | [] => []
  | [piece] => piece
  | piece :: rest => piece ++ separator ++ join separator rest

/-- The text `n` times over. -/
def repeated (n : Nat) (t : Text) : Text := (List.replicate n t).flatten

/-- Whether a text ends in the code points of another. -/
def endsWith (t tail : Text) : Bool := tail.isSuffixOf t

/-- Whether a text starts with the code points of another. -/
def startsWith (t start : Text) : Bool := start.isPrefixOf t

/-- The text cut at every occurrence of a code point, which belongs to no piece. -/
def splitOn (c : CodePoint) : Text → List Text
  | [] => [[]]
  | d :: rest =>
    if d = c then [] :: splitOn c rest
    else match splitOn c rest with
      | [] => [[d]]
      | piece :: pieces => (d :: piece) :: pieces

end Text

end TypeGloss
