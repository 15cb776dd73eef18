import TypeGloss.Text.Numeral

/-!
# JSON

Reports and records are written as JSON with ASCII characters only. Every other code point is
written as an escape of four digits, and those beyond `U+FFFF` as two of them.
-/

namespace TypeGloss

/-- A JSON value; the members of an object keep their order. -/
inductive JsonValue where
  | null
  | int (n : Int)
  | text (t : Text)
  | list (items : List JsonValue)
  | object (members : List (Text × JsonValue))

namespace JsonValue

/-- A text, or null if there is none. -/
def ofText? : Option Text → JsonValue
  | some t => .text t
  | none => .null

/-- A number, or null if there is none. -/
def ofInt? : Option Int → JsonValue
  | some n => .int n
  | none => .null

/-- The escape with the number of a UTF-16 unit. -/
def unitEscape (n : Nat) : Text := "\\u" ++ Text.hexadecimal 4 n

/-- A code point inside a quoted text. -/
def escaped (c : CodePoint) : Text :=
  match c with
  | .scalar '"' => "\\\""
  | .scalar '\\' => "\\\\"
  | .scalar '\n' => "\\n"
  | .scalar '\r' => "\\r"
  | .scalar '\t' => "\\t"
  | .scalar '\x0C' => "\\f"
  | .scalar '\x08' => "\\b"
  | c =>
    let n := c.toNat
    if 0x20 ≤ n ∧ n < 0x7F then [c]
    else if n < 0x10000 then unitEscape n
    else unitEscape (0xD800 + (n - 0x10000) / 0x400) ++ unitEscape (0xDC00 + (n - 0x10000) % 0x400)

/-- A text in quotes. -/
def quoted (t : Text) : Text := "\"" ++ t.flatMap escaped ++ "\""

/-- How values are laid out. -/
inductive Style where
  /-- On one line, with a blank behind commas. -/
  | line
  /-- Every item on a line of its own, two blanks further in than the value it belongs to. -/
  | indented
  deriving DecidableEq, Repr

/-- A new line at a depth. -/
def newLine (depth : Nat) : Text := "\n" ++ Text.repeated depth "  "

/-- Items between brackets at a depth. -/
def enclose (style : Style) (depth : Nat) (opening closing : Text) (items : List Text) : Text :=
  match style, items with
  | _, [] => opening ++ closing
  | .line, items => opening ++ Text.join ", " items ++ closing
  | .indented, items =>
    opening ++ newLine (depth + 1) ++ Text.join ("," ++ newLine (depth + 1)) items ++
      newLine depth ++ closing

mutual

/-- A value at a depth. -/
def renderAt (style : Style) (depth : Nat) : JsonValue → Text
  | .null => "null"
  | .int n => Text.decimalInt n
  | .text t => quoted t
  | .list items => enclose style depth "[" "]" (renderItems style (depth + 1) items)
  | .object members =>
    enclose style depth "\x7b" "\x7d" (renderMembers style (depth + 1) members)

/-- The items of a list. -/
def renderItems (style : Style) (depth : Nat) : List JsonValue → List Text
  | [] => []
  | item :: rest => renderAt style depth item :: renderItems style depth rest

/-- The members of an object. -/
def renderMembers (style : Style) (depth : Nat) : List (Text × JsonValue) → List Text
  | [] => []
  | (key, value) :: rest =>
    (quoted key ++ ": " ++ renderAt style depth value) :: renderMembers style depth rest

end

/-- A value as text. -/
def render (style : Style) (value : JsonValue) : Text := renderAt style 0 value

end JsonValue

end TypeGloss
