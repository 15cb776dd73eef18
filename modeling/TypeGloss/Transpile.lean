import TypeGloss.Gloss.Annotate
import TypeGloss.Print.Placement
import TypeGloss.Source.Read

/-!
# From source to annotated text

A source text is read, its facts are collected, the tree is annotated with them and printed.
-/

namespace TypeGloss

/-- A source text on its way to annotated text. -/
structure Transpiled where
  /-- The program as it was read. -/
  program : Node
  /-- What was found in it. -/
  record : Record
  /-- The program with its types. -/
  annotated : Node
  /-- The text of the annotated program. -/
  text : Text

/-- Why a program that was read has no annotated text. -/
inductive GlossError where
  /-- The record does not fit the program. -/
  | mismatch (m : Mismatch)
  /-- The annotated program cannot be printed. -/
  | unprintable (e : Unprintable)

/-- Why a source text has no annotated text. -/
inductive TranspileError where
  /-- The text is no program. -/
  | read (e : ReadError)
  /-- The program has no annotated text. -/
  | gloss (e : GlossError)
  /-- The program is nested too deeply. -/
  | tooDeep

namespace Transpiled

/-- The annotated text of a program, and the memory behind. -/
def ofProgram (layout : Layout) (program : Node) (cache : Cache) :
    Except GlossError (Transpiled × Cache) :=
  let (record, cache) := Facts.collect program cache
  match Gloss.annotate record program with
  | .error m => .error (.mismatch m)
  | .ok annotated =>
    match annotated.print layout with
    | .error e => .error (.unprintable e)
    | .ok text => .ok ({ program, record, annotated, text }, cache)

/-- The annotated text of a source text, and the memory behind. -/
def ofSource (dialect : Dialect) (layout : Layout) (source : Text) (cache : Cache) :
    Except TranspileError (Transpiled × Cache) :=
  match Source.read dialect source with
  | .error e => .error (.read e)
  | .ok program => (ofProgram layout program cache).mapError .gloss

/-- The annotated text of a source text that is not nested too deeply, and the memory behind. -/
def ofSourceBounded (dialect : Dialect) (layout : Layout) (source : Text) (cache : Cache) :
    Except TranspileError (Transpiled × Cache) :=
  match Source.readBounded dialect source with
  | .error (.error e) => .error (.read e)
  | .error .tooDeep => .error .tooDeep
  | .ok program =>
    if Nesting.tooDeepToWrite program then .error .tooDeep
    else (ofProgram layout program cache).mapError .gloss

end Transpiled

end TypeGloss
