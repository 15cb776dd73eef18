import TypeGloss.Text.Utf8

/-!
# Paths that name nothing

Files are asked for by the bytes of a path, which end at the first zero. A path that has no bytes,
or that holds a zero, can be looked at but no file operation takes it. A byte that is part of no
UTF-8 sequence has a surrogate of its own, from `U+DC80` to `U+DCFF`, so these surrogates have bytes
in a path although they have none in a text.
-/

namespace TypeGloss

/-- Why no file operation takes a path. -/
inductive PathFault where
  /-- The path has no bytes. -/
  | encoding (fault : Utf8.EncodeFault)
  /-- The path holds a zero. -/
  | zero
  deriving DecidableEq, Repr

namespace PathFault

/-- Whether a code point stands for a single byte that is part of no UTF-8 sequence. -/
def standsForByte (c : CodePoint) : Bool := 0xDC80 ≤ c.toNat && c.toNat ≤ 0xDCFF

/-- Why no file operation takes a path. That it has no bytes is found first. -/
def of? (path : Text) : Option PathFault :=
  match Utf8.surrogatesBut? standsForByte path with
  | some fault => some (.encoding fault)
  | none => if path.contains (.scalar '\x00') then some .zero else none

/-- The message for a path that no file operation takes. -/
def message : PathFault → Text
  | .encoding fault => fault.message
  | .zero => "embedded null byte"

end PathFault

end TypeGloss
