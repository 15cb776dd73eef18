import TypeGloss.Location
import TypeGloss.Text.Numeral

/-!
# Spans

A span is a best effort at a position in a file. Every part of it may be unknown.
-/

namespace TypeGloss

/-- A position in a file. -/
structure Span where
  /-- The name of the file. -/
  file : Option Text := none
  /-- The line, from one. -/
  line : Option Int := none
  /-- The column, from one. -/
  column : Option Int := none
  /-- The line where the position ends. -/
  endLine : Option Int := none
  /-- The column where the position ends. -/
  endColumn : Option Int := none
  deriving DecidableEq, Repr

/-- A place as any reader of programs may report it, with the file under one of two names. -/
structure Place where
  /-- The name of the file. -/
  file : Option Text := none
  /-- The name of the file, where `file` does not have it. -/
  filename : Option Text := none
  /-- The line, from one. -/
  line : Option Int := none
  /-- The column, from one. -/
  column : Option Int := none
  /-- The line where the place ends. -/
  endLine : Option Int := none
  /-- The column where the place ends. -/
  endColumn : Option Int := none
  deriving DecidableEq, Repr

namespace Span

/-- A name that is not empty. -/
def given (name : Option Text) : Option Text := name.filter (!·.isEmpty)

/-- The span with a name for its file, if it has none yet. -/
def inFile (file : Option Text) (span : Span) : Span :=
  if (given file).isSome ∧ (given span.file).isNone then { span with file } else span

/-- The span of a place. The given name for the file goes before those of the place. -/
def ofPlace (file : Option Text) (place : Place) : Span :=
  { file := (given file).or ((given place.file).or (given place.filename))
    line := place.line
    column := place.column
    endLine := place.endLine
    endColumn := place.endColumn }

/-- The span of a location in a file. -/
def ofLocation (file : Option Text) (loc : Location) : Span :=
  ofPlace file { line := some loc.line, column := some loc.column }

/-- File, line and column with colons between. What is unknown is left out, and so is a column
without a line. -/
def describe (span : Span) : Text :=
  let file := (given span.file).getD "<input>"
  match span.line, span.column with
  | none, _ => file
  | some line, none => file ++ ":" ++ Text.decimalInt line
  | some line, some column => file ++ ":" ++ Text.decimalInt line ++ ":" ++ Text.decimalInt column

end Span

end TypeGloss
