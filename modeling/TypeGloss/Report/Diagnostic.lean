import TypeGloss.Report.Span

/-!
# Diagnostics

A diagnostic is one problem found in a file: a message with a position, a code, and the phase of the
work that found it.
-/

namespace TypeGloss

/-- A problem found in a file. -/
structure Diagnostic where
  /-- What is wrong. -/
  message : Text
  /-- A short code for the kind of problem. -/
  code : Option Text := none
  /-- The phase that found the problem. -/
  phase : Option Text := none
  /-- How bad the problem is. -/
  severity : Text := "error"
  /-- Where the problem is. -/
  span : Span := {}
  /-- Further remarks. -/
  notes : List Text := []
  deriving DecidableEq, Repr

namespace Diagnostic

/-- The line for a note. -/
def noteLine (note : Text) : Text := "\n  note: " ++ note

/-- The diagnostic as text: position, severity and message on one line, then one line for each
note. -/
def format (d : Diagnostic) : Text :=
  d.span.describe ++ ": " ++ d.severity ++ ": " ++ d.message ++
    d.notes.flatMap noteLine

end Diagnostic

end TypeGloss
