import TypeGloss.Report.Diagnostic
import TypeGloss.Source.Read

/-!
# Reports of source texts that are no programs
-/

namespace TypeGloss

namespace ReadError

/-- Where the error is in a file. Type syntax that is not allowed is the position of a node, which
passes over an empty file name. -/
def span (file : Option Text) (e : ReadError) : Span :=
  match e with
  | .typeSyntax loc => .ofLocation file loc
  | e =>
    { file, line := e.loc?.map fun loc => loc.line, column := e.loc?.map fun loc => loc.column }

/-- The error with its line and column in front, if it has them. -/
def text (e : ReadError) : Text :=
  match e.loc? with
  | some loc => Text.decimal loc.line ++ ":" ++ Text.decimal loc.column ++ ": " ++ e.message
  | none => e.message

/-- The diagnostic for the error. -/
def diagnostic (file : Option Text) (e : ReadError) : Diagnostic :=
  { message := e.message
    code := some "E-PARSE"
    phase := some "parser"
    span := e.span file }

end ReadError

end TypeGloss
