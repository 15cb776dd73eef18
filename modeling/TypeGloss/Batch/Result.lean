import TypeGloss.Report.Diagnostic
import TypeGloss.Report.Json

/-!
# Results

Every input of a batch has one result: where its output is, and what went wrong at which stage.
-/

namespace TypeGloss

/-- A stage of the work on one file. -/
inductive Stage where
  | read
  | parse
  | annotate
  | write
  | verify
  deriving DecidableEq, Repr

/-- The name of a stage. -/
def Stage.name : Stage → Text
  | .read => "read"
  | .parse => "parse"
  | .annotate => "annotate"
  | .write => "write"
  | .verify => "verify"

/-- What went wrong with a file. -/
structure FileFailure where
  /-- The stage at which it went wrong. -/
  stage : Stage
  /-- What is wrong. -/
  message : Text
  /-- The problems that were found. -/
  diagnostics : List Diagnostic := []
  deriving DecidableEq, Repr

/-- The result for one input. -/
structure FileResult where
  /-- The path of the input. -/
  input : Text
  /-- The path of the output, if there is one. -/
  output : Option Text
  /-- What went wrong. -/
  failure : Option FileFailure
  deriving DecidableEq, Repr

namespace FileResult

/-- Whether nothing went wrong. -/
def isSuccess (r : FileResult) : Bool := r.failure.isNone

/-- The word for how it went. -/
def status (r : FileResult) : Text := if r.isSuccess then "success" else "failed"

/-- The problems that were found. -/
def diagnostics (r : FileResult) : List Diagnostic :=
  (r.failure.map FileFailure.diagnostics).getD []

end FileResult

/-- A diagnostic for a report. -/
def Diagnostic.report (d : Diagnostic) : JsonValue :=
  .object [("message", .text d.message), ("code", .ofText? d.code), ("phase", .ofText? d.phase),
    ("severity", .text d.severity), ("file", .ofText? d.span.file),
    ("line", .ofInt? d.span.line), ("column", .ofInt? d.span.column),
    ("notes", .list (d.notes.map .text))]

/-- A result for a report. -/
def FileResult.report (r : FileResult) : JsonValue :=
  .object [("input", .text r.input), ("output", .ofText? r.output), ("status", .text r.status),
    ("error", .ofText? (r.failure.map FileFailure.message)),
    ("stage", .ofText? (r.failure.map (·.stage.name))),
    ("diagnostics", .list (r.diagnostics.map Diagnostic.report))]

end TypeGloss
