import TypeGloss.Text.CodePoint

/-!
# Locations

A place in a text is a line and a column, both counted from one in code points. Only a line feed
starts a new line.
-/

namespace TypeGloss

/-- A line and a column of a text. -/
structure Location where
  /-- The line, from one; zero marks a node that no source text holds. -/
  line : Nat
  /-- The column, from one. -/
  column : Nat
  deriving DecidableEq, Repr

namespace Location

/-- Where every text starts. -/
def first : Location := ⟨1, 1⟩

/-- The location of nodes that do not come from a source text. -/
def synthetic : Location := ⟨0, 0⟩

/-- The location behind a code point. -/
def after (here : Location) (c : CodePoint) : Location :=
  if c = .scalar '\n' then ⟨here.line + 1, 1⟩ else ⟨here.line, here.column + 1⟩

/-- Source order: by line, then by column. -/
def le (a b : Location) : Bool :=
  a.line < b.line || (a.line == b.line && a.column ≤ b.column)

end Location

end TypeGloss
