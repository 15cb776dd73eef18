import TypeGloss.Text.Letter

/-!
# Layout

Programs are printed compactly, without any blank or line end that can be left out, or prettily,
with blanks around operators and blocks indented by two blanks for each level.
-/

namespace TypeGloss

/-- How a program is laid out. -/
inductive Layout where
  | compact
  | pretty
  deriving DecidableEq, Repr

namespace Layout

/-- A blank that compact text leaves out. -/
def space : Layout → Text
  | .compact => ""
  | .pretty => " "

/-- The blanks at the start of a line inside `depth` blocks. -/
def indent (depth : Nat) : Text := Text.repeated depth "  "

/-- A text in parentheses. -/
def parens (t : Text) : Text := "(" ++ t ++ ")"

/-- A text in parentheses, if it is wrapped. -/
def wrapped (isWrapped : Bool) (t : Text) : Text := if isWrapped then parens t else t

/-- Pieces with commas between them. -/
def commas (layout : Layout) (pieces : List Text) : Text :=
  Text.join ("," ++ layout.space) pieces

/-- Lines in braces, each on a line of its own in a pretty layout. -/
def braced (layout : Layout) (depth : Nat) (lines : List Text) : Text :=
  if lines.isEmpty then "\x7b\x7d"
  else match layout with
    | .compact => "\x7b" ++ lines.flatten ++ "\x7d"
    | .pretty =>
      "\x7b\n" ++ Text.join "\n" (lines.map (indent (depth + 1) ++ ·)) ++ "\n" ++ indent depth ++
        "\x7d"

/-- Whether an operator is a word, in any script. -/
def isWord (operator : Text) : Bool := !operator.isEmpty && operator.all CodePoint.isLetter

/-- Whether a code point is a plus or a minus sign. -/
def isSign (c : CodePoint) : Bool := c = .scalar '+' || c = .scalar '-'

/-- Whether the end of a text and the start of another are the same sign, so that they would run
together into one token. -/
def signsMeet (left right : Text) : Bool :=
  match left.getLast?, right.head? with
  | some a, some b => isSign a && a = b
  | _, _ => false

/-- An operator between its operands. Compact text has blanks only around words and between signs
that would run together. -/
def between (layout : Layout) (left operator right : Text) : Text :=
  if isWord operator || layout = .pretty then left ++ " " ++ operator ++ " " ++ right
  else
    left ++ (if signsMeet left operator then " " else "") ++ operator ++
      (if signsMeet operator right then " " else "") ++ right

/-- An operator before its argument, apart from it if it is a word or would run together with it. -/
def before (operator argument : Text) : Text :=
  if isWord operator || argument.startsWith operator then operator ++ " " ++ argument
  else operator ++ argument

end Layout

end TypeGloss
