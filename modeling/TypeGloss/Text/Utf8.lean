import TypeGloss.Text.Numeral

/-!
# UTF-8

Files hold bytes. Bytes are decoded to text from left to right, and the first sequence that encodes
no scalar value is reported with its place and what is wrong with it. Text is encoded unless it
holds a surrogate; the first run of surrogates is reported.
-/

namespace TypeGloss

/-- The content of a file. -/
abbrev Bytes := List UInt8

namespace Utf8

/-- What is wrong with bytes that encode no text. -/
inductive Reason where
  /-- No sequence starts with the byte. -/
  | badStart
  /-- A byte does not continue the sequence that was started. -/
  | badContinuation
  /-- The bytes end inside a sequence. -/
  | ending
  deriving DecidableEq, Repr

/-- Bytes that encode no text. -/
structure DecodeFault where
  /-- The first of the bytes. -/
  first : UInt8
  /-- The place of the first byte. -/
  start : Nat
  /-- How many bytes are at fault. -/
  length : Nat
  /-- What is wrong with them. -/
  reason : Reason
  deriving DecidableEq, Repr

/-- The words for a reason. -/
def Reason.message : Reason → Text
  | .badStart => "invalid start byte"
  | .badContinuation => "invalid continuation byte"
  | .ending => "unexpected end of data"

/-- The message for bytes that encode no text. -/
def DecodeFault.message (fault : DecodeFault) : Text :=
  let place : Text :=
    if fault.length = 1 then
      "byte 0x" ++ Text.hexadecimal 2 fault.first.toNat ++ " in position " ++
        Text.decimal fault.start
    else
      "bytes in position " ++ Text.decimal fault.start ++ "-" ++
        Text.decimal (fault.start + fault.length - 1)
  "'utf-8' codec can't decode " ++ place ++ ": " ++ fault.reason.message

/-- Whether a byte continues a sequence. -/
def continues (b : UInt8) : Bool := 0x80 ≤ b && b < 0xC0

/-- Whether the second byte of a sequence fits its first: neither an overlong form, nor a surrogate,
nor a number beyond the last code point. -/
def fits (first second : UInt8) : Bool :=
  continues second &&
    !(first == 0xE0 && second < 0xA0) && !(first == 0xED && 0xA0 ≤ second) &&
    !(first == 0xF0 && second < 0x90) && !(first == 0xF4 && 0x90 ≤ second)

/-- The number of bytes in the sequence that a byte starts; zero if it starts none. -/
def width (first : UInt8) : Nat :=
  if first < 0x80 then 1
  else if first < 0xC2 then 0
  else if first < 0xE0 then 2
  else if first < 0xF0 then 3
  else if first < 0xF5 then 4
  else 0

/-- The bits that a continuing byte adds to a number. -/
def extend (value : Nat) (b : UInt8) : Nat := value * 64 + (b.toNat - 0x80)

/-- The character with a number. -/
def character (value : Nat) : CodePoint := .scalar (Char.ofNat value)

/-- The text that bytes encode from a position on, behind the code points decoded so far, the latest
of them first. -/
def decodeOnto (done : Text) (position : Nat) : Bytes → Except DecodeFault Text
  | [] => .ok done.reverse
  | a :: rest =>
    let fault (length : Nat) (reason : Reason) : Except DecodeFault Text :=
      .error { first := a, start := position, length, reason }
    match width a, rest with
    | 1, rest => decodeOnto (character a.toNat :: done) (position + 1) rest
    | 2, [] => fault 1 .ending
    | 2, b :: rest =>
      if !fits a b then fault 1 .badContinuation
      else decodeOnto (character (extend (a.toNat - 0xC0) b) :: done) (position + 2) rest
    | 3, [] => fault 1 .ending
    | 3, [b] => if !fits a b then fault 1 .badContinuation else fault 2 .ending
    | 3, b :: c :: rest =>
      if !fits a b then fault 1 .badContinuation
      else if !continues c then fault 2 .badContinuation
      else
        decodeOnto (character (extend (extend (a.toNat - 0xE0) b) c) :: done) (position + 3) rest
    | 4, [] => fault 1 .ending
    | 4, [b] => if !fits a b then fault 1 .badContinuation else fault 2 .ending
    | 4, [b, c] =>
      if !fits a b then fault 1 .badContinuation
      else if !continues c then fault 2 .badContinuation
      else fault 3 .ending
    | 4, b :: c :: d :: rest =>
      if !fits a b then fault 1 .badContinuation
      else if !continues c then fault 2 .badContinuation
      else if !continues d then fault 3 .badContinuation
      else decodeOnto (character (extend (extend (extend (a.toNat - 0xF0) b) c) d) :: done)
        (position + 4) rest
    | _, _ => fault 1 .badStart

/-- The text that bytes encode. -/
def decode (bytes : Bytes) : Except DecodeFault Text := decodeOnto [] 0 bytes

/-- A run of surrogates, which has no encoding. -/
structure EncodeFault where
  /-- The first surrogate. -/
  first : CodePoint
  /-- The place of the first surrogate. -/
  start : Nat
  /-- How many surrogates follow one another. -/
  length : Nat
  deriving DecidableEq, Repr

/-- The message for text that has no encoding. -/
def EncodeFault.message (fault : EncodeFault) : Text :=
  let place : Text :=
    if fault.length = 1 then
      "character '\\u" ++ Text.hexadecimal 4 fault.first.toNat ++ "' in position " ++
        Text.decimal fault.start
    else
      "characters in position " ++ Text.decimal fault.start ++ "-" ++
        Text.decimal (fault.start + fault.length - 1)
  "'utf-8' codec can't encode " ++ place ++ ": surrogates not allowed"

/-- The surrogates of a text that follow one another from the first one on that is not spared. -/
def surrogatesBut? (spared : CodePoint → Bool) (t : Text) : Option EncodeFault :=
  let start := (t.takeWhile fun c => !c.isSurrogate || spared c).length
  match t.drop start with
  | [] => none
  | first :: rest =>
    some { first, start, length := 1 + (rest.takeWhile (·.isSurrogate)).length }

/-- The first run of surrogates of a text. -/
def surrogates? (t : Text) : Option EncodeFault := surrogatesBut? (fun _ => false) t

/-- A byte that continues a sequence. -/
def continuation (bits : Nat) : UInt8 := (0x80 + bits % 64).toUInt8

/-- The bytes that encode a number. -/
def sequence (n : Nat) : Bytes :=
  if n < 0x80 then [n.toUInt8]
  else if n < 0x800 then [(0xC0 + n / 64).toUInt8, continuation n]
  else if n < 0x10000 then [(0xE0 + n / 4096).toUInt8, continuation (n / 64), continuation n]
  else
    [(0xF0 + n / 262144).toUInt8, continuation (n / 4096), continuation (n / 64), continuation n]

/-- The bytes that encode a text. -/
def encode (t : Text) : Except EncodeFault Bytes :=
  match surrogates? t with
  | some fault => .error fault
  | none => .ok (t.flatMap fun c => sequence c.toNat)

/-- The number of bytes that encode a text. -/
def byteLength (t : Text) : Nat := t.foldr (fun c length => (sequence c.toNat).length + length) 0

end Utf8

namespace Text

/-- The text with every line end as a line feed: a carriage return counts as one, together with a
line feed behind it. -/
def unifyLineEnds (t : Text) : Text := (go [] t).reverse
where
  /-- Goes through a text with the unified part in reverse. -/
  go (done : Text) : Text → Text
  | [] => done
  | .scalar '\r' :: .scalar '\n' :: rest => go (.scalar '\n' :: done) rest
  | c :: rest => go ((if c = .scalar '\r' then .scalar '\n' else c) :: done) rest

end Text

end TypeGloss
