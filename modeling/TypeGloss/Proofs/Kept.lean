import Mathlib.Data.List.Basic
import TypeGloss.Proofs.Atomic

/-!
# Outputs that stay

The work on a file changes only places whose last name is that of one of its outputs. So if no other
input of a batch has the stem of an input, the work on the others leaves its output alone, and at
the end the output that is reported has the text for what was read from the input.
-/

namespace TypeGloss

namespace FileSystem

variable {f g h fs : FileSystem} {names : List Text} {path : Text} {place : List Text}

/-- Directories stay, and a place has something else only if it has one of some last names. -/
structure Keeps (names : List Text) (f g : FileSystem) : Prop where
  home : f.home = g.home
  directories : ∀ p, f.entry? p = some .directory → g.entry? p = some .directory
  others : ∀ p, (∀ before, ∀ name ∈ names, p ≠ before ++ [name]) → g.entry? p = f.entry? p

theorem Same.keeps (same : g.Same f) (names : List Text) : f.Keeps names g where
  home := same.home.symm
  directories p directory := (same.entries p).trans directory
  others p _ := same.entries p

theorem Keeps.trans (first : f.Keeps names g) (second : g.Keeps names h) : f.Keeps names h where
  home := first.home.trans second.home
  directories p directory := second.directories p (first.directories p directory)
  others p other := (second.others p other).trans (first.others p other)

theorem Keeps.mono (keeps : f.Keeps names g) {more : List Text} (sub : names ⊆ more) :
    f.Keeps more g where
  home := keeps.home
  directories := keeps.directories
  others p other := keeps.others p fun before name mem => other before name (sub mem)

/-- A file stays where it is found unless its name is one of those. -/
theorem Keeps.locate (keeps : f.Keeps names g) {content : Bytes}
    (located : f.locate path = .ok (.file place content)) {before : List Text} {name : Text}
    (shape : place = before ++ [name]) (other : name ∉ names) :
    g.locate path = .ok (.file place content) := by
  have holds := (follow_place (follow_of_locate located) rfl).2
  have stays : g.entry? place = f.entry? place := by
    refine keeps.others place fun before' name' mem same => other ?_
    obtain rfl := (List.append_singleton_inj.mp (shape.symm.trans same)).2
    exact mem
  exact Reaches.locate ⟨_, located, rfl⟩ keeps.home keeps.directories (stays.trans holds)

end FileSystem

namespace Script

variable {fs : FileSystem}

/-- Writing changes only what has the last name of the target. -/
theorem Wrote.keeps {target text name : Text} {after : Except WriteError Unit × FileSystem}
    (wrote : Wrote fs target text after)
    (isLast : (Path.segments target).getLast? = some name) : fs.Keeps [name] after.2 := by
  cases wrote with
  | failed same => exact same.keeps [name]
  | @written content goal after encoded free same located =>
    obtain ⟨before, last, shape, isName⟩ :=
      FileSystem.Reaches.last ⟨_, located, rfl⟩
    obtain rfl := Option.some.inj (isLast.symm.trans isName)
    have inside : goal ≠ [] := by simp [shape]
    have entry (p : List Text) (other : goal ≠ p) : after.entry? p = fs.entry? p := by
      rw [same.entries, FileSystem.entry_put inside, if_neg other]
    refine ⟨same.home.symm, fun p directory => ?_, fun p other => ?_⟩
    · rw [entry p (by rintro rfl; exact free directory), directory]
    · refine entry p fun here => ?_
      exact other before name List.mem_cons_self (here ▸ shape)

end Script

namespace Path

/-- The names of the outputs for an input. -/
def outputNames (source : Path) (options : Options) : List Text :=
  (source.stem ++ ".ts") :: if options.writeRecord then [source.stem ++ ".analysis.json"] else []

theorem eq_of_mem_outputNames {source : Path} {options : Options} {name : Text}
    (mem : name ∈ source.outputNames options) :
    name = source.stem ++ ".ts" ∨ name = source.stem ++ ".analysis.json" := by
  rcases List.mem_cons.mp mem with text | record
  · exact .inl text
  · split at record
    · exact .inr (List.mem_singleton.mp record)
    · cases record

theorem IsWritten.stem {source : Path} (written : source.IsWritten) :
    .scalar '/' ∉ source.stem := by
  intro mem
  have inName := mem_of_mem_withoutEnding mem
  unfold name at inName
  cases last : source.names.getLast? with
  | none => simp [last] at inName
  | some name =>
    rw [last] at inName
    exact (written name (List.mem_of_getLast? last)).whole inName

theorem IsWritten.output {source : Path} (written : source.IsWritten) (ending : Text)
    (plain : .scalar '/' ∉ ending) : .scalar '/' ∉ source.stem ++ ending := by
  simp [written.stem, plain]

theorem stem_ts_ne (s t : Text) : s ++ ".ts" ≠ t ++ ".analysis.json" := by
  intro same
  have last := congrArg List.getLast? same
  simp [List.getLast?_append, Text.ofString] at last

/-- Inputs with different stems have different outputs. -/
theorem output_not_mem {source other : Path} (different : source.stem ≠ other.stem)
    (options : Options) : source.stem ++ ".ts" ∉ other.outputNames options := by
  intro mem
  rcases eq_of_mem_outputNames mem with same | same
  · exact different (List.append_cancel_right same)
  · exact stem_ts_ne _ _ same

end Path

namespace Batch

variable {options : Options} {source directory : Path}

/-- The text of a transpiled program is where a path leads, as the output for an input. -/
def Delivers (source : Path) (t : Transpiled) (fs : FileSystem) (target : Text) : Prop :=
  ∃ bytes before, Utf8.encode (t.text ++ "\n") = .ok bytes ∧
    fs.locate target = .ok (.file (before ++ [source.stem ++ ".ts"]) bytes)

/-- An output stays where it is unless its name is one of those that are changed. -/
theorem Delivers.keeps {t : Transpiled} {f g : FileSystem} {target : Text} {names : List Text}
    (delivers : Delivers source t f target) (keeps : f.Keeps names g)
    (other : source.stem ++ ".ts" ∉ names) : Delivers source t g target := by
  obtain ⟨bytes, before, encoded, located⟩ := delivers
  exact ⟨bytes, before, encoded, keeps.locate located rfl other⟩

/-- Writing the annotated text for an input delivers it, or fails. -/
theorem run_writeText (written : source.IsWritten) {fs : FileSystem} {t : Transpiled}
    {after : Except Script.WriteError Unit × FileSystem}
    (ran : (Script.writeAtomic (source.outputFor directory) (t.text ++ "\n")).run fs = after) :
    fs.Keeps [source.stem ++ ".ts"] after.2 ∧
      (after.1 = .ok () → Delivers source t after.2 (source.outputFor directory).text) := by
  have isLast : (Path.segments (source.outputFor directory).text).getLast? =
      some (source.stem ++ ".ts") :=
    directory.getLast?_segments_child (written.output ".ts" (by decide))
  have wrote : Script.Wrote fs (source.outputFor directory).text (t.text ++ "\n") after :=
    ran ▸ Script.run_writeAtomic fs (source.outputFor directory) (t.text ++ "\n")
  refine ⟨wrote.keeps isLast, fun success => ?_⟩
  obtain _ | @⟨bytes, goal, after, encoded, -, -, located⟩ := wrote
  · cases success
  · obtain ⟨before, name, rfl, isName⟩ := FileSystem.Reaches.last ⟨_, located, rfl⟩
    obtain rfl := Option.some.inj (isLast.symm.trans isName)
    exact ⟨bytes, before, encoded, located⟩

/-- Writing the outputs for an input delivers its text, or fails. -/
theorem run_writeOutputs (written : source.IsWritten) {fs : FileSystem} {t : Transpiled}
    {after : Except Script.WriteError Unit × FileSystem}
    (ran : (writeOutputs options source (source.outputFor directory) t).run fs = after) :
    fs.Keeps (source.outputNames options) after.2 ∧
      (after.1 = .ok () → Delivers source t after.2 (source.outputFor directory).text) := by
  rw [writeOutputs, Script.run_bind] at ran
  generalize first : (Script.writeAtomic (source.outputFor directory) (t.text ++ "\n")).run fs =
    between at ran
  obtain ⟨textKeeps, delivers⟩ := run_writeText written first
  have keeps : fs.Keeps (source.outputNames options) between.2 :=
    textKeeps.mono (by simp [Path.outputNames])
  obtain ⟨e | success, middle⟩ := between
  · subst ran
    exact ⟨keeps, nofun⟩
  have delivers := delivers rfl
  dsimp only at keeps delivers ran
  split at ran
  · rename_i recorded
    have isLast : (Path.segments ((source.outputFor directory).withName
        (source.stem ++ ".analysis.json")).text).getLast? =
          some (source.stem ++ ".analysis.json") :=
      Path.getLast?_segments_child _ (written.output ".analysis.json" (by decide))
    have later := (ran ▸ Script.run_writeAtomic middle _ (recordText t.record)).keeps isLast
    refine ⟨keeps.trans (later.mono (by simp [Path.outputNames, recorded])), fun _ => ?_⟩
    exact delivers.keeps later (by simpa using Path.stem_ts_ne source.stem source.stem)
  · subst ran
    exact ⟨keeps, fun _ => delivers⟩

/-- The result for an input has an output if it is a success, and an output that it has is the text
for the content that was read from the input. -/
structure Reports (options : Options) (source : Path) (log : List Exchange) (fs : FileSystem)
    (result : FileResult) : Prop where
  input : result.input = source.text
  output : result.isSuccess = true → result.output.isSome = true
  delivers : ∀ target ∈ result.output, ∃ content t, ⟨.read result.input, .ok content⟩ ∈ log ∧
    transpile options result.input content = .ok t ∧ Delivers source t fs target

/-- A result without an output reports none. -/
theorem Reports.failed {log : List Exchange} {fs : FileSystem} (failure : FileFailure) :
    Reports options source log fs
      { input := source.text, output := none, failure := some failure } :=
  ⟨rfl, nofun, nofun⟩

theorem Reports.keeps {log more : List Exchange} {f g : FileSystem} {result : FileResult}
    {names : List Text} (reports : Reports options source log f result) (sub : log ⊆ more)
    (keeps : f.Keeps names g) (other : source.stem ++ ".ts" ∉ names) :
    Reports options source more g result := by
  refine ⟨reports.input, reports.output, fun target mem => ?_⟩
  obtain ⟨content, t, read, worked, delivers⟩ := reports.delivers target mem
  exact ⟨content, t, sub read, worked, delivers.keeps keeps other⟩

/-- The work on a file changes only its outputs, and its result reports them. -/
theorem run_file (written : source.IsWritten) {fs after : FileSystem}
    {outcome : Except Interruption FileResult}
    (ran : (file options source directory).run fs = (outcome, after)) :
    fs.Keeps (source.outputNames options) after ∧ ∀ result, outcome = .ok result →
      Reports options source ((file options source directory).log fs) after result := by
  have unchanged : fs.Keeps (source.outputNames options) fs := (FileSystem.Same.refl fs).keeps _
  cases taken : PathFault.of? source.text with
  | some fault =>
    simp only [file, taken] at ran
    cases ran
    exact ⟨unchanged, by rintro _ ⟨⟩⟩
  | none =>
    have asked : ⟨.read source.text, fs.read source.text⟩ ∈
        (file options source directory).log fs := by
      simp only [file, taken, Script.log_bind]
      exact List.mem_append_left _ List.mem_cons_self
    have replied : (Script.request (.read source.text)).run fs = (fs.read source.text, fs) := rfl
    simp only [file, taken, Script.run_bind, replied] at ran
    cases read : fs.read source.text with
    | error e =>
      rw [read] at ran
      cases ran
      exact ⟨unchanged, fun _ isResult => Except.ok.inj isResult ▸ .failed _⟩
    | ok content =>
      rw [read] at ran asked
      dsimp only at ran
      split at ran
      · cases ran
        exact ⟨unchanged, fun _ isResult => Except.ok.inj isResult ▸ .failed _⟩
      rename_i t worked
      rw [Script.run_bind] at ran
      generalize wrote : (writeOutputs options source (source.outputFor directory) t).run fs =
        between at ran
      obtain ⟨keeps, delivers⟩ := run_writeOutputs written wrote
      obtain ⟨(fault | e | fault) | success, later⟩ := between
      · cases ran
        exact ⟨keeps, by rintro _ ⟨⟩⟩
      · cases ran
        exact ⟨keeps, fun _ isResult => Except.ok.inj isResult ▸ .failed _⟩
      · cases ran
        exact ⟨keeps, by rintro _ ⟨⟩⟩
      · cases ran
        refine ⟨keeps, fun result isResult => ?_⟩
        cases isResult
        refine ⟨rfl, fun _ => rfl, fun target mem => ?_⟩
        cases mem
        exact ⟨content, t, asked, worked, delivers rfl⟩

section

variable {work : List Path → Script (Except Interruption (List FileResult))} {fs after : FileSystem}
  {results : List FileResult}

/-- Work that has results has one for the first file, and then goes through the others. -/
theorem WorksThrough.run_cons (through : WorksThrough options directory work) {rest : List Path}
    (ran : (work (source :: rest)).run fs = (.ok results, after)) :
    ∃ result others middle, results = result :: others ∧
      (file options source directory).run fs = (.ok result, middle) ∧
      (work rest).run middle = (.ok others, after) ∧
      (work (source :: rest)).log fs =
        (file options source directory).log fs ++ (work rest).log middle := by
  obtain ⟨next, shape, continues, stops⟩ := through.cons source rest
  rw [shape, Script.run_bind] at ran
  rw [shape, Script.log_bind]
  generalize first : (file options source directory).run fs = between at ran ⊢
  obtain ⟨stop | result, middle⟩ := between
  · have stopped := stops stop _ _ (Script.goes_run (next (.error stop)) middle)
    rw [ran] at stopped
    cases stopped
  rw [continues, Script.run_bind] at ran
  rw [continues, Script.log_bind]
  generalize second : (work rest).run middle = between at ran ⊢
  obtain ⟨stop | others, last⟩ := between
  · cases ran
  cases ran
  exact ⟨result, others, middle, rfl, rfl, second, by simp [including, Script.log, pure]⟩

/-- The work on files changes only their outputs. -/
theorem WorksThrough.keeps (through : WorksThrough options directory work) {inputs : List Path}
    (written : ∀ input ∈ inputs, input.IsWritten)
    (ran : (work inputs).run fs = (.ok results, after)) :
    fs.Keeps (inputs.flatMap (Path.outputNames · options)) after := by
  induction inputs generalizing fs results with
  | nil =>
    rw [through.nil] at ran
    cases ran
    exact (FileSystem.Same.refl after).keeps _
  | cons source rest ih =>
    obtain ⟨here, later⟩ := List.forall_mem_cons.mp written
    obtain ⟨result, others, middle, rfl, first, second, -⟩ := through.run_cons ran
    refine ((run_file here first).1.mono ?_).trans ((ih later second).mono ?_)
    · exact List.subset_append_left _ _
    · exact List.subset_append_right _ _

/-- The result for an input reports its output as it is at the end, if no later input has the same
stem. -/
theorem WorksThrough.reports (through : WorksThrough options directory work)
    {front behind : List Path} (written : ∀ input ∈ front ++ source :: behind, input.IsWritten)
    (alone : ∀ other ∈ behind, other.stem ≠ source.stem) {earlier later : List FileResult}
    {result : FileResult} (place : earlier.length = front.length)
    (ran : (work (front ++ source :: behind)).run fs = (.ok (earlier ++ result :: later), after)) :
    Reports options source ((work (front ++ source :: behind)).log fs) after result := by
  induction front generalizing fs earlier with
  | nil =>
    obtain rfl := List.length_eq_zero_iff.mp place
    obtain ⟨here, others⟩ := List.forall_mem_cons.mp written
    obtain ⟨_, _, middle, shape, first, second, logged⟩ := through.run_cons ran
    obtain ⟨rfl, rfl⟩ := List.cons.inj shape
    have other : source.stem ++ ".ts" ∉ behind.flatMap (Path.outputNames · options) := by
      intro mem
      obtain ⟨input, inside, isName⟩ := List.mem_flatMap.mp mem
      exact Path.output_not_mem (alone input inside).symm options isName
    refine ((run_file here first).2 result rfl).keeps ?_ (through.keeps others second) other
    exact logged ▸ List.subset_append_left _ _
  | cons input front ih =>
    obtain ⟨_, _, middle, shape, first, second, logged⟩ := through.run_cons ran
    cases earlier with
    | nil => cases place
    | cons =>
      obtain ⟨rfl, rfl⟩ := List.cons.inj shape
      have reports := ih (List.forall_mem_cons.mp written).2 (Nat.succ.inj place) second
      refine reports.keeps ?_ ((FileSystem.Same.refl after).keeps []) nofun
      exact logged ▸ List.subset_append_right _ _

end

end Batch

end TypeGloss
