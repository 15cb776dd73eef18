import TypeGloss.Batch.Result
import TypeGloss.Check
import TypeGloss.Facts.Report
import TypeGloss.Files.Script
import TypeGloss.Options
import TypeGloss.Transpile

/-!
# Working through files

A file is read, its annotated text is worked out, written next to the other outputs and checked. A
failure of one file is its result and does not stop the others. Only a text that has no encoding
and a path that no file operation takes stop the work.
-/

namespace TypeGloss

namespace Batch

/-- The message for a program that is nested too deeply. -/
def tooDeepMessage : Text := "expression nesting is too deep to process"

/-- The failure for a program that is nested too deeply. -/
def tooDeep (name : Text) (stage : Stage) (phase : Text) : FileFailure :=
  { stage
    message := tooDeepMessage
    diagnostics :=
      [{ message := tooDeepMessage
         code := some "E-DEPTH"
         phase := some phase
         span := { file := some name } }] }

/-- The failure for a record that does not fit its program. -/
def mismatched (m : Mismatch) : FileFailure :=
  { stage := .annotate
    message := m.message
    diagnostics :=
      [{ message := m.message, code := some "E-ANALYSIS", phase := some "annotator" }] }

/-- The failure for a source text that is no program. -/
def unreadable (name : Text) (e : ReadError) : FileFailure :=
  { stage := .parse, message := e.text, diagnostics := [e.diagnostic (some name)] }

/-- The annotated text for the content of a file, or what is wrong with it. -/
def transpile (options : Options) (name : Text) (content : Bytes) :
    Except FileFailure Transpiled :=
  match Utf8.decode content with
  | .error fault => .error { stage := .read, message := fault.message }
  | .ok source =>
    match Source.readBounded options.dialect source.unifyLineEnds with
    | .error (.error e) => .error (unreadable name e)
    | .error .tooDeep => .error (tooDeep name .parse "parser")
    | .ok program =>
      if Nesting.tooDeepToWrite program then .error (tooDeep name .annotate "annotator")
      else
        match Transpiled.ofProgram options.layout program .empty with
        | .ok (transpiled, _) => .ok transpiled
        | .error (.mismatch m) => .error (mismatched m)
        | .error (.unprintable e) => .error { stage := .annotate, message := e.message }

/-- The text of the file for a record. -/
def recordText (record : Record) : Text := record.report.render .indented ++ "\n"

/-- Writes the outputs for a file: the annotated text, and the record if it is wanted. -/
def writeOutputs (options : Options) (source target : Path) (t : Transpiled) :
    Script (Except Script.WriteError Unit) := do
  match ← Script.writeAtomic target (t.text ++ "\n") with
  | .error e => return .error e
  | .ok () =>
    if options.writeRecord then
      Script.writeAtomic (target.withName (source.stem ++ ".analysis.json")) (recordText t.record)
    else return .ok ()

/-- What the check of an output finds wrong. -/
def verification (name target : Text) (text : Text) : Option FileFailure :=
  match Check.textBounded (some target) text with
  | none => some (tooDeep name .verify "verifier")
  | some [] => none
  | some found =>
    some
      { stage := .verify
        message := target ++ ": " ++ Text.join "; " (found.map Diagnostic.message)
        diagnostics := found }

/-- What stops the work on all files. -/
inductive Interruption where
  /-- No file operation takes a path. -/
  | path (fault : PathFault)
  /-- A text has no encoding. -/
  | text (fault : Utf8.EncodeFault)
  deriving DecidableEq, Repr

/-- The message for what stops the work. -/
def Interruption.message : Interruption → Text
  | .path fault => fault.message
  | .text fault => fault.message

/-- The work on one file. -/
def file (options : Options) (source directory : Path) :
    Script (Except Interruption FileResult) :=
  let target := source.outputFor directory
  let failed (failure : FileFailure) : Except Interruption FileResult :=
    .ok { input := source.text, output := none, failure := some failure }
  match PathFault.of? source.text with
  | some fault => return .error (.path fault)
  | none => do
    match ← Script.request (.read source.text) with
    | .error e => return failed { stage := .read, message := e.message }
    | .ok content =>
      match transpile options source.text content with
      | .error failure => return failed failure
      | .ok transpiled =>
        match ← writeOutputs options source target transpiled with
        | .error (.refused e) => return failed { stage := .write, message := e.message }
        | .error (.path fault) => return .error (.path fault)
        | .error (.encoding fault) => return .error (.text fault)
        | .ok () =>
          let failure :=
            if options.verify then verification source.text target.text transpiled.text else none
          return .ok { input := source.text, output := some target.text, failure }

/-- The work on files one after the other, up to the first interruption. -/
def inTurn (options : Options) (directory : Path) :
    List Path → Script (Except Interruption (List FileResult))
  | [] => return .ok []
  | source :: rest => do
    match ← file options source directory with
    | .error stop => return .error stop
    | .ok result =>
      match ← inTurn options directory rest with
      | .error stop => return .error stop
      | .ok results => return .ok (result :: results)

/-- The work on all files; the first interruption is reported at the end. -/
def allOf (options : Options) (directory : Path) :
    List Path → Script (Except Interruption (List FileResult))
  | [] => return .ok []
  | source :: rest => do
    let first ← file options source directory
    let others ← allOf options directory rest
    match first, others with
    | .error stop, _ => return .error stop
    | .ok _, .error stop => return .error stop
    | .ok result, .ok results => return .ok (result :: results)

/-- Why a batch has no results. -/
inductive Abort where
  /-- The directory for outputs cannot be made. -/
  | directory (e : FileError)
  /-- The work was stopped. -/
  | interrupted (stop : Interruption)

/-- The work on a batch: the directory for outputs is made, and then every input is worked on. With
one job, or a single input, they are worked on in turn. -/
def files (options : Options) (inputs : List Path) (directory : Path) :
    Script (Except Abort (List FileResult)) :=
  match PathFault.of? directory.text with
  | some fault => return .error (.interrupted (.path fault))
  | none => do
    match ← Script.makeDirectories directory with
    | .error e => return .error (.directory e)
    | .ok () =>
      let work := if options.jobs = 1 ∨ inputs.length < 2 then inTurn else allOf
      return (← work options directory inputs).mapError .interrupted

end Batch

end TypeGloss
