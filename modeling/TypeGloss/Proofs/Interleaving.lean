import TypeGloss.Proofs.Atomic

/-!
# Scripts that share a file system

Scripts that run at the same time take their steps in some order on one file system. A script that
asks only about places that no other script changes ends as it would alone, in every order, and the
places that it changes have at the end what it leaves there. Running the scripts one after the other
is one of the orders.
-/

namespace TypeGloss

namespace FileSystem

/-- Two file systems have the same at the places that are seen. -/
structure Agree (sees : List Text → Prop) (f g : FileSystem) : Prop where
  home : f.home = g.home
  entries : ∀ p, sees p → f.entry? p = g.entry? p

theorem Agree.refl (sees : List Text → Prop) (fs : FileSystem) : fs.Agree sees fs :=
  ⟨rfl, fun _ _ => rfl⟩

end FileSystem

/-- No file operation moves the working directory. -/
theorem FileSystem.home_answer (fs : FileSystem) (r : Request) :
    (fs.answer r).2.home = fs.home := by
  cases r with
  | isDirectory | read => rfl
  | makeDirectory path =>
    simp only [FileSystem.answer, FileSystem.makeDirectory]
    split <;> rfl
  | createTemporary target =>
    simp only [FileSystem.answer, FileSystem.createTemporary]
    split <;> rfl
  | write path content =>
    simp only [FileSystem.answer, FileSystem.write]
    split <;> rfl
  | rename path target =>
    simp only [FileSystem.answer, FileSystem.rename]
    split <;> rfl
  | remove path =>
    simp only [FileSystem.answer, FileSystem.remove]
    split <;> rfl

/-- The places that a script may look at and the places that it may change. -/
structure Scope where
  /-- The places whose entries may matter. -/
  sees : List Text → Prop
  /-- The places whose entries may change. -/
  owns : List Text → Prop
  /-- What may change may matter. -/
  sees_of_owns : ∀ p, owns p → sees p

/-- What happens on two file systems is the same as far as can be seen, and the second one changes
only where it may. -/
structure Scope.Matches (scope : Scope) {β : Type} (g : FileSystem) (x y : β × FileSystem) :
    Prop where
  reply : y.1 = x.1
  agree : x.2.Agree scope.sees y.2
  frame : ∀ p, ¬ scope.owns p → FileSystem.entry? y.2 p = g.entry? p

/-- A request looks at and changes nothing beyond a scope. -/
def FileSystem.Confines (fs : FileSystem) (scope : Scope) (r : Request) : Prop :=
  ∀ g, fs.Agree scope.sees g → scope.Matches g (fs.answer r) (g.answer r)

namespace Script

variable {α β : Type} {scope : Scope} {fs g : FileSystem}

/-- All requests of a script on a file system stay in a scope. -/
def Confined (scope : Scope) : Script α → FileSystem → Prop
  | .done _, _ => True
  | .ask request next, fs =>
    fs.Confines scope request ∧ (next (fs.answer request).1).Confined scope (fs.answer request).2

/-- A step of a script does the same on every file system that agrees where it can see. -/
theorem Confined.step {s : Script α} (confined : s.Confined scope fs)
    (agree : fs.Agree scope.sees g) :
    scope.Matches g (s.step fs) (s.step g) ∧ (s.step fs).1.Confined scope (s.step fs).2 := by
  cases s with
  | done => exact ⟨⟨rfl, agree, fun _ _ => rfl⟩, trivial⟩
  | ask request next =>
    obtain ⟨reply, after, frame⟩ := confined.1 g agree
    exact ⟨⟨congrArg next reply, after, frame⟩, confined.2⟩

theorem home_step (s : Script α) (fs : FileSystem) : (s.step fs).2.home = fs.home := by
  cases s with
  | done => rfl
  | ask request => exact fs.home_answer request

theorem home_run (s : Script α) (fs : FileSystem) : (s.run fs).2.home = fs.home := by
  induction s generalizing fs with
  | done => rfl
  | ask request next ih => exact (ih _ _).trans (fs.home_answer request)

/-- A script in a scope leaves the other places alone. -/
theorem Confined.entry_run {s : Script α} (confined : s.Confined scope fs) {p : List Text}
    (other : ¬ scope.owns p) : FileSystem.entry? (s.run fs).2 p = fs.entry? p := by
  induction s generalizing fs with
  | done => rfl
  | ask request next ih =>
    exact (ih _ confined.2).trans ((confined.1 fs (.refl _ _)).frame p other)

end Script

/-- Scripts that share a file system. -/
structure Pool (α : Type) where
  /-- What is left to do for each script. -/
  scripts : List (Script α)
  /-- The file system. -/
  files : FileSystem

namespace Pool

variable {α : Type}

/-- One step of the script at a position. -/
def step (pool : Pool α) (i : Nat) : Pool α :=
  match pool.scripts[i]? with
  | none => pool
  | some s => ⟨pool.scripts.set i (s.step pool.files).1, (s.step pool.files).2⟩

/-- Steps of the scripts at the given positions, one after the other. -/
def run (pool : Pool α) (schedule : List Nat) : Pool α := schedule.foldl step pool

/-- What holds on the way: each script is where it would be alone on a file system that it cannot
tell from the shared one, and places that belong to none are as at the start. -/
structure Follows (scopes : Nat → Scope) (start now : Pool α) : Prop where
  length : now.scripts.length = start.scripts.length
  home : now.files.home = start.files.home
  each : ∀ i s, start.scripts[i]? = some s → ∃ (left : Script α) (fs : FileSystem),
    now.scripts[i]? = some left ∧ left.Confined (scopes i) fs ∧
      fs.Agree (scopes i).sees now.files ∧ left.run fs = s.run start.files
  others : ∀ p, (∀ i < start.scripts.length, ¬ (scopes i).owns p) →
    now.files.entry? p = start.files.entry? p

/-- No script changes what another one sees. -/
def Apart (scopes : Nat → Scope) (count : Nat) : Prop :=
  ∀ i < count, ∀ j < count, i ≠ j → ∀ p, (scopes j).owns p → ¬ (scopes i).sees p

variable {scopes : Nat → Scope} {start now : Pool α}

theorem follows_start
    (confined : ∀ (i : Nat) (s : Script α), start.scripts[i]? = some s →
      s.Confined (scopes i) start.files) :
    Follows scopes start start where
  length := rfl
  home := rfl
  each i s here := ⟨s, start.files, here, confined i s here, .refl _ _, rfl⟩
  others _ _ := rfl

/-- One step keeps what holds on the way. -/
theorem Follows.step (follows : Follows scopes start now)
    (apart : Apart scopes start.scripts.length) (j : Nat) :
    Follows scopes start (now.step j) := by
  unfold Pool.step
  split
  · exact follows
  rename_i moving here
  have within : j < start.scripts.length := by
    rw [← follows.length]
    exact (List.getElem?_eq_some_iff.mp here).1
  obtain ⟨left, fs, isLeft, confined, agree, same⟩ :=
    follows.each j start.scripts[j] (List.getElem?_eq_getElem within)
  obtain rfl := Option.some.inj (here.symm.trans isLeft)
  obtain ⟨⟨reply, after, frame⟩, onward⟩ := confined.step agree
  refine ⟨by simpa using follows.length, ?_, fun i s isStart => ?_, fun p none => ?_⟩
  · exact (moving.home_step now.files).trans follows.home
  · by_cases moved : i = j
    · subst moved
      obtain rfl := Option.some.inj (isStart.symm.trans (List.getElem?_eq_getElem within))
      refine ⟨_, _, ?_, onward, after, (Script.run_step moving fs).trans same⟩
      rw [List.getElem?_set_self (follows.length ▸ within), reply]
    · have isWithin : i < start.scripts.length := (List.getElem?_eq_some_iff.mp isStart).1
      obtain ⟨left, alone, isLeft, confined, agree, same⟩ := follows.each i s isStart
      refine ⟨left, alone, ?_, confined, ⟨?_, fun p seen => ?_⟩, same⟩
      · rw [List.getElem?_set_ne (Ne.symm moved), isLeft]
      · exact agree.home.trans (moving.home_step now.files).symm
      · have notOwned : ¬ (scopes j).owns p := fun owned =>
          apart i isWithin j within moved p owned seen
        rw [agree.entries p seen, frame p notOwned]
  · rw [frame p (none j within), follows.others p none]

/-- So does every sequence of steps. -/
theorem Follows.run (follows : Follows scopes start now)
    (apart : Apart scopes start.scripts.length) (schedule : List Nat) :
    Follows scopes start (now.run schedule) := by
  induction schedule generalizing now with
  | nil => exact follows
  | cons i rest ih => exact ih (follows.step apart i)

/-- When all scripts are done, each has the result that it has alone. -/
theorem Follows.outcomes {outcomes : List α} {files : FileSystem}
    (follows : Follows scopes start ⟨outcomes.map .done, files⟩) :
    outcomes = start.scripts.map fun s => (s.run start.files).1 := by
  refine List.ext_getElem? fun i => ?_
  rw [List.getElem?_map]
  cases isStart : start.scripts[i]? with
  | none =>
    have length : outcomes.length = start.scripts.length := by simpa using follows.length
    exact List.getElem?_eq_none (length ▸ List.getElem?_eq_none_iff.mp isStart)
  | some s =>
    obtain ⟨left, fs, isLeft, -, -, same⟩ := follows.each i s isStart
    rw [List.getElem?_map] at isLeft
    obtain ⟨outcome, isOutcome, rfl⟩ := Option.map_eq_some_iff.mp isLeft
    rw [isOutcome, Option.map_some, ← same]
    rfl

/-- When all scripts are done, their places have what they leave there alone. -/
theorem Follows.holds {outcomes : List α} {files : FileSystem}
    (follows : Follows scopes start ⟨outcomes.map .done, files⟩) {i : Nat} {s : Script α}
    (isStart : start.scripts[i]? = some s) {p : List Text} (owned : (scopes i).owns p) :
    files.entry? p = FileSystem.entry? (s.run start.files).2 p := by
  obtain ⟨left, fs, isLeft, -, agree, same⟩ := follows.each i s isStart
  rw [List.getElem?_map] at isLeft
  obtain ⟨outcome, -, rfl⟩ := Option.map_eq_some_iff.mp isLeft
  rw [← agree.entries p ((scopes i).sees_of_owns p owned), ← same]
  rfl

/-- All orders of steps in which all scripts get done end alike. -/
theorem Follows.unique {first second : List α} {f g : FileSystem}
    (follows : Follows scopes start ⟨first.map .done, f⟩)
    (other : Follows scopes start ⟨second.map .done, g⟩) : first = second ∧ f.Same g := by
  refine ⟨follows.outcomes.trans other.outcomes.symm, follows.home.trans other.home.symm,
    fun p => ?_⟩
  by_cases owned : ∃ i < start.scripts.length, (scopes i).owns p
  · obtain ⟨i, within, owned⟩ := owned
    have isStart := List.getElem?_eq_getElem within
    rw [follows.holds isStart owned, other.holds isStart owned]
  · have none : ∀ i < start.scripts.length, ¬ (scopes i).owns p := fun i within owns =>
      owned ⟨i, within, owns⟩
    exact (follows.others p none).trans (other.others p none).symm

/-- The results of scripts that run one after the other, and the file system behind. -/
def inOrder : List (Script α) → FileSystem → List α × FileSystem
  | [], fs => ([], fs)
  | s :: rest, fs =>
    let (result, fs) := s.run fs
    let (results, fs) := inOrder rest fs
    (result :: results, fs)

end Pool

end TypeGloss
