import TypeGloss.Token.Scan

/-!
# Keys of type members

A key that reads as a word stands as it is. Every other key is quoted.
-/

namespace TypeGloss

namespace Key

/-- Whether a text is a word, a line feed at its end not counted. -/
def isPlain (name : Text) : Bool :=
  let letters := if name.getLast? = some (.scalar '\n') then name.dropLast else name
  match letters with
  | [] => false
  | c :: rest => Lexeme.isWordStart c && rest.all Lexeme.isWordPart

/-- A code point inside a quoted key: the backslash and the quote are escaped. -/
def escape (c : CodePoint) : Text :=
  if c = .scalar '\\' ∨ c = .scalar '\'' then [.scalar '\\', c] else [c]

/-- A key as it is written in a type body. -/
def render (name : Text) : Text :=
  if isPlain name then name else "'" ++ name.flatMap escape ++ "'"

end Key

end TypeGloss
