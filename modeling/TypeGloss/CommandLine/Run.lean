import TypeGloss.Batch.Process
import TypeGloss.CommandLine.Arguments
import TypeGloss.Files.Expand

/-!
# The command line

The command line finds its inputs, works on them and reports: a line for each file with a summary,
or one JSON value. It fails if a file fails, if there are no inputs, or if there is nowhere to put
the outputs.
-/

namespace TypeGloss

namespace CommandLine

/-- The name of the program in its messages. -/
def programName : Text := "jstsc"

/-- What the program leaves behind: its exit code and what it prints. -/
structure Outcome where
  /-- Zero if all went well. -/
  exitCode : Nat
  /-- What it prints as its output. -/
  output : Text := []
  /-- What it prints as messages. -/
  messages : Text := []
  deriving DecidableEq, Repr

/-- Why the program ends without an outcome. -/
inductive Escape where
  /-- The arguments ask for no work. -/
  | arguments (stop : ArgumentStop)
  /-- The inputs cannot be looked for. -/
  | inputs (refusal : Expand.Refusal)
  /-- The work was stopped. -/
  | interrupted (stop : Batch.Interruption)

/-- The message for arguments that are refused. -/
def usageMessage (e : UsageError) : Text := programName ++ ": error: " ++ e.message

/-- How the program is called. -/
def usage : Text :=
  "usage: " ++ programName ++ " [-h] -i INPUT -o OUTPUT [--plugin NAME] [--pretty] [--no-verify] " ++
    "[--emit-analysis] [-j JOBS] [--json]"

/-- The outcome when there are no results. -/
def withoutResults (json : Bool) (message : Text) : Outcome :=
  if json then
    let value : JsonValue :=
      .object [("exit_code", .int 1), ("error", .text message), ("results", .list [])]
    { exitCode := 1, output := value.render .line ++ "\n" }
  else { exitCode := 1, messages := "error: " ++ message ++ "\n" }

/-- The line for a diagnostic. -/
def diagnosticLine (d : Diagnostic) : Text := "  " ++ d.format ++ "\n"

/-- The lines for a result. -/
def resultLines (r : FileResult) : Text :=
  match r.failure with
  | none => "✔ " ++ r.input ++ " -> " ++ r.output.getD "None" ++ "\n"
  | some failure =>
    "✖ " ++ r.input ++ " -> Failed: " ++ failure.message ++ "\n" ++
      failure.diagnostics.flatMap diagnosticLine

/-- The outcome with results. -/
def withResults (json : Bool) (results : List FileResult) : Outcome :=
  let failed := (results.filter (!·.isSuccess)).length
  let exitCode : Nat := if failed = 0 then 0 else 1
  if json then
    let value : JsonValue :=
      .object [("exit_code", .int exitCode), ("results", .list (results.map FileResult.report))]
    { exitCode, output := value.render .indented ++ "\n" }
  else
    { exitCode
      messages := results.flatMap resultLines ++ Text.decimal (results.length - failed) ++
        " succeeded, " ++ Text.decimal failed ++ " failed\n" }

/-- The work on inputs that were found. -/
def workOn (a : Arguments) (inputs : List Text) : Script (Except Escape Outcome) :=
  if inputs.isEmpty then
    return .ok (withoutResults a.json ("no input files match " ++ a.input))
  else
    match a.output with
    | .dashes => return .error (.arguments (.dashes .output))
    | .value output => do
      match ← Batch.files a.options (inputs.map Path.ofText) (Path.ofText output) with
      | .ok results => return .ok (withResults a.json results)
      | .error (.directory e) =>
        return .ok (withoutResults a.json
          ("cannot prepare output directory " ++ output ++ ": " ++ e.message))
      | .error (.interrupted stop) => return .error (.interrupted stop)

/-- The program on a file system. -/
def run (arguments : List Text) (fs : FileSystem) : Except Escape Outcome × FileSystem :=
  match Arguments.ofTexts arguments with
  | .error stop => (.error (.arguments stop), fs)
  | .ok a =>
    match Expand.inputs fs a.input with
    | .error e => (.error (.inputs e), fs)
    | .ok inputs => (workOn a inputs).run fs

end CommandLine

end TypeGloss
