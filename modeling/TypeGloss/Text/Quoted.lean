import TypeGloss.Text.Numeral
import TypeGloss.Text.Printable

/-!
# Quoted text in messages

A message shows a piece of source between quotes, with everything a reader could not see escaped.
-/

namespace TypeGloss

namespace Text

/-- The quote around a text: single, unless the text holds a single quote and no double one. -/
def quoteFor (t : Text) : Char :=
  if t.contains (.scalar '\'') && !t.contains (.scalar '"') then '"' else '\''

/-- One code point between quotes: a backslash, the quote itself, line ends and tabs have short
escapes, and what is not printable is written by its number. -/
def quotedPoint (quote : Char) (c : CodePoint) : Text :=
  if c = .scalar '\\' ∨ c = .scalar quote then [.scalar '\\', c]
  else if c = .scalar '\n' then "\\n"
  else if c = .scalar '\r' then "\\r"
  else if c = .scalar '\t' then "\\t"
  else if c.isPrintable then [c]
  else if c.toNat < 0x100 then "\\x" ++ hexadecimal 2 c.toNat
  else if c.toNat < 0x10000 then "\\u" ++ hexadecimal 4 c.toNat
  else "\\U" ++ hexadecimal 8 c.toNat

/-- A text between quotes, as messages show it. -/
def quoted (t : Text) : Text :=
  let quote := quoteFor t
  .scalar quote :: t.flatMap (quotedPoint quote) ++ [.scalar quote]

end Text

end TypeGloss
