import TypeGloss.Proofs.Confined
import TypeGloss.Proofs.Kept
import TypeGloss.Proofs.Temporary

/-!
# Independent files

The work on a file looks at the places that lead to its input and to the directory for outputs, and
at its outputs and their temporary files, which alone it changes. So files with different stems do
not disturb each other if no input is reached over an output or a temporary file of another, and in
every order of their steps they end as they do one after the other.
-/

namespace TypeGloss

open FileSystem (temporaryName stations onTheWay)

namespace Path

variable {options : Options}

/-- A name that the work on an input may use in the directory for outputs: that of an output, or of
a temporary file for one. -/
def MayUse (source : Path) (options : Options) (name : Text) : Prop :=
  ∃ output ∈ source.outputNames options, name = output ∨ ∃ turn, name = temporaryName output turn

theorem stem_of_mem_outputNames {source other : Path} {name : Text}
    (mem : name ∈ source.outputNames options) (otherMem : name ∈ other.outputNames options) :
    source.stem = other.stem := by
  rcases eq_of_mem_outputNames mem with rfl | rfl <;>
    rcases eq_of_mem_outputNames otherMem with same | same
  · exact List.append_cancel_right same
  · exact absurd same (stem_ts_ne _ _)
  · exact absurd same.symm (stem_ts_ne _ _)
  · exact List.append_cancel_right same

theorem getLast?_temporaryName (output : Text) (turn : Nat) :
    (temporaryName output turn).getLast? = some (.scalar 'p') := by
  rw [FileSystem.temporaryName_eq, List.getLast?_append]
  rfl

theorem getLast?_of_mem_outputNames {source : Path} {name : Text}
    (mem : name ∈ source.outputNames options) :
    name.getLast? = some (.scalar 's') ∨ name.getLast? = some (.scalar 'n') := by
  rcases eq_of_mem_outputNames mem with rfl | rfl
  · exact .inl (by rw [List.getLast?_append]; rfl)
  · exact .inr (by rw [List.getLast?_append]; rfl)

/-- An output has no name of a temporary file. -/
theorem ne_temporaryName {source : Path} {name : Text} (mem : name ∈ source.outputNames options)
    (output : Text) (turn : Nat) : name ≠ temporaryName output turn := by
  rintro rfl
  have last := getLast?_of_mem_outputNames mem
  simp [getLast?_temporaryName] at last

/-- Inputs with different stems use different names. -/
theorem MayUse.stem {source other : Path} {name : Text} (uses : source.MayUse options name)
    (otherUses : other.MayUse options name) : source.stem = other.stem := by
  obtain ⟨output, mem, rfl | ⟨turn, rfl⟩⟩ := uses <;>
    obtain ⟨otherOutput, otherMem, same | ⟨otherTurn, same⟩⟩ := otherUses
  · exact stem_of_mem_outputNames mem (same ▸ otherMem)
  · exact absurd same (ne_temporaryName mem _ _)
  · exact absurd same.symm (ne_temporaryName otherMem _ _)
  · obtain ⟨rfl, -⟩ := FileSystem.temporaryName_inj same
    exact stem_of_mem_outputNames mem otherMem

theorem isPlain_of_getLast? {name : Text} {c : CodePoint} (last : name.getLast? = some c)
    (noDot : c ≠ .scalar '.') (whole : .scalar '/' ∉ name) : IsPlain name := by
  have other (dots : Text) (isLast : dots.getLast? = some (.scalar '.')) : name ≠ dots := by
    rintro rfl
    exact noDot (Option.some.inj (last.symm.trans isLast))
  have some : name ≠ [] := by
    rintro rfl
    cases last
  exact ⟨⟨by simp [isIdle, some, other "." rfl], whole⟩, other ".." rfl⟩

/-- The names that the work on an input may use are plain. -/
theorem MayUse.isPlain {source : Path} (written : source.IsWritten) {name : Text}
    (uses : source.MayUse options name) : IsPlain name := by
  obtain ⟨output, mem, which⟩ := uses
  have whole : .scalar '/' ∉ output := by
    rcases eq_of_mem_outputNames mem with rfl | rfl
    · exact written.output ".ts" (by decide)
    · exact written.output ".analysis.json" (by decide)
  rcases which with rfl | ⟨turn, rfl⟩
  · rcases getLast?_of_mem_outputNames mem with last | last
    · exact isPlain_of_getLast? last (by decide) whole
    · exact isPlain_of_getLast? last (by decide) whole
  · refine isPlain_of_getLast? (getLast?_temporaryName output turn) (by decide) ?_
    have noMark := FileSystem.not_mem_mark (c := .scalar '/') rfl (by decide) turn
    rw [FileSystem.temporaryName_eq]
    simp only [List.mem_append, not_or]
    exact ⟨⟨⟨⟨by decide, whole⟩, by decide⟩, noMark⟩, by decide⟩

end Path

namespace Path

theorem IsWritten.child {p : Path} (written : p.IsWritten) {name : Text} (isName : IsName name) :
    (p.child name).IsWritten :=
  List.forall_mem_append.mpr ⟨written, List.forall_mem_singleton.mpr isName⟩

end Path

namespace Batch

variable {options : Options} {home : List Text} {source directory : Path} {fs : FileSystem}

/-- The places that lead to the directory for outputs. -/
abbrev approach (home : List Text) (directory : Path) : List (List Text) :=
  stations directory.names (directory.startPlace home)

/-- A place in the directory for outputs that the work on an input may use. -/
def Uses (options : Options) (home : List Text) (directory source : Path) (p : List Text) : Prop :=
  ∃ name, source.MayUse options name ∧ p = directory.fromRoot home ++ [name]

/-- The places that matter for the work on an input, and those that it changes. -/
def scope (options : Options) (home : List Text) (directory source : Path) : Scope where
  sees p := p ∈ onTheWay home source.text ∨ p ∈ approach home directory ∨
    p <+: directory.fromRoot home ∨ Uses options home directory source p
  owns p := Uses options home directory source p ∧ p ∉ approach home directory
  sees_of_owns _ owned := .inr (.inr (.inr owned.1))

/-- The directory for outputs is there. -/
structure Ready (home : List Text) (directory : Path) (fs : FileSystem) : Prop where
  isHome : fs.home = home
  directories : ∀ p ∈ approach home directory, fs.entry? p = some .directory

theorem Ready.answer (ready : Ready home directory fs) {r : Request}
    (confines : fs.Confines (scope options home directory source) r) :
    Ready home directory (fs.answer r).2 where
  isHome := (fs.home_answer r).trans ready.isHome
  directories p mem := by
    rw [(confines fs (.refl _ _)).frame p fun owned => owned.2 mem, ready.directories p mem]

theorem Ready.run {α : Type} {s : Script α} (ready : Ready home directory fs)
    (confined : s.Confined (scope options home directory source) fs) :
    Ready home directory (s.run fs).2 where
  isHome := (s.home_run fs).trans ready.isHome
  directories p mem := by
    rw [confined.entry_run fun owned => owned.2 mem, ready.directories p mem]

/-- What is known of the paths and the working directory. -/
structure Settled (home : List Text) (directory source : Path) : Prop where
  home : ∀ name ∈ home, Path.IsPlain name
  directory : directory.IsWritten
  source : source.IsWritten

/-- What a path reaches is owned if it may be used. -/
theorem Ready.owns (ready : Ready home directory fs) {path : Text} {p : List Text}
    (reaches : fs.Reaches path p) (uses : Uses options home directory source p) :
    (scope options home directory source).owns p :=
  ⟨uses, fun mem => reaches.entry_ne (ready.directories p mem)⟩

variable {output : Text}

end Batch

end TypeGloss
