import TypeGloss.Proofs.Atomic

/-!
# What a failed file leaves behind

The work on a file that ends without an output leaves every place as it was, whichever operations
are refused, with one exception: if a record is wanted and cannot be written, the annotated text is
written already and stays, although the result names no output.
-/

namespace TypeGloss

open Script (Ends Wrote)

namespace FileSystem

/-- Nothing is changed but the file that a path leads to, which has a text that it did not have. -/
inductive LeftBy (target text : Text) (fs after : FileSystem) : Prop
  | mk {content : Bytes} {goal : List Text} (encoded : Utf8.encode text = .ok content)
      (isNew : fs.entry? goal ≠ some (.file content))
      (same : after.Same (fs.put goal (.file content)))
      (located : after.locate target = .ok (.file goal content))

variable {fs between after : FileSystem} {target text : Text}

/-- What is left is a change. -/
theorem LeftBy.not_same (left : LeftBy target text fs after) : ¬ after.Same fs := by
  obtain ⟨-, isNew, -, located⟩ := left
  intro same
  have holds := (follow_place (follow_of_locate located) rfl).2
  rw [same.entries] at holds
  exact isNew holds

theorem LeftBy.ofSame (left : LeftBy target text fs between) (same : after.Same between) :
    LeftBy target text fs after := by
  obtain ⟨encoded, isNew, sameBetween, located⟩ := left
  exact ⟨encoded, isNew, same.trans sameBetween, same.locate.trans located⟩

end FileSystem

open FileSystem (LeftBy)

/-- A text that is written is left, unless it was there before. -/
theorem Script.Wrote.leaves {fs after : FileSystem} {target text : Text}
    (wrote : Wrote fs target text (.ok (), after)) :
    after.Same fs ∨ LeftBy target text fs after := by
  obtain _ | @⟨content, goal, _, encoded, -, same, located⟩ := wrote
  by_cases isOld : fs.entry? goal = some (.file content)
  case neg => exact .inr ⟨encoded, isOld, same, located⟩
  obtain ⟨⟨before, name, rfl, -⟩, -⟩ :=
    FileSystem.follow_place (FileSystem.follow_of_locate located) rfl
  refine .inl (same.trans ⟨rfl, fun p => ?_⟩)
  rw [FileSystem.entry_put (by simp)]
  split
  · rename_i here
    rw [← here, isOld]
  · rfl

namespace Batch

variable {options : Options} {source directory target : Path} {fs after : FileSystem}

/-- Outputs that cannot all be written leave nothing, or the first of two. -/
theorem writeOutputs_leaves {t : Transpiled} {e : Script.WriteError}
    (ends : (writeOutputs options source target t).Ends fs (.error e) after) :
    after.Same fs ∨
      options.writeRecord = true ∧ LeftBy target.text (t.text ++ "\n") fs after := by
  obtain ⟨first, between, endsFirst, endsRest⟩ := ends.split
  have wrote := endsFirst.wrote
  cases first with
  | error =>
    obtain ⟨-, rfl⟩ := endsRest.eq
    obtain ⟨same⟩ := wrote
    exact .inl same
  | ok =>
    dsimp only at endsRest
    split at endsRest
    case isFalse => cases endsRest.eq.1
    case isTrue wanted =>
      -- The second output is written as a whole or not at all, and it is not.
      obtain ⟨same⟩ := endsRest.wrote
      rcases wrote.leaves with old | left
      · exact .inl (same.trans old)
      · exact .inr ⟨wanted, left.ofSame same⟩

/-- Work on a file that ends without an output changes something exactly if a record was wanted and
the output was left without it. Then nothing else is changed. -/
theorem file_leaves (options : Options) (source directory : Path) (fs : FileSystem)
    {result : FileResult} {after : FileSystem}
    (ends : (file options source directory).Ends fs (.ok result) after)
    (noOutput : result.output = none) :
    ¬ after.Same fs ↔ options.writeRecord = true ∧ ∃ content t,
      fs.read source.text = .ok content ∧ transpile options source.text content = .ok t ∧
        LeftBy (source.outputFor directory).text (t.text ++ "\n") fs after := by
  refine ⟨fun changed => ?_, fun ⟨_, _, _, _, _, left⟩ => left.not_same⟩
  unfold file at ends
  split at ends
  · cases ends.eq.1
  obtain ⟨reply, _, replied, endsRead⟩ := ends.asked
  obtain ⟨rfl, read⟩ := replied.ofRead
  cases reply with
  | error => exact absurd (endsRead.eq.2 ▸ .refl _) changed
  | ok content =>
    dsimp only at endsRead
    split at endsRead
    · exact absurd (endsRead.eq.2 ▸ .refl _) changed
    rename_i t worked
    obtain ⟨outcome, between, endsWrite, endsRest⟩ := endsRead.split
    cases outcome with
    | ok =>
      rw [Except.ok.inj endsRest.eq.1] at noOutput
      cases noOutput
    | error e =>
      have same : after = between := by
        cases e <;> exact endsRest.eq.2
      subst same
      rcases writeOutputs_leaves endsWrite with same | ⟨wanted, left⟩
      · exact absurd same changed
      · exact ⟨wanted, content, t, read content rfl, worked, left⟩

/-- A directory with a program, where a directory takes the place of an output. -/
def blocked (name : Text) : FileSystem :=
  (working [("x.js", "let x=1")]).withDirectories ["out", name]

/-- The work on the program. -/
def blockedWork (options : Options) : Script (Except Interruption FileResult) :=
  file options ⟨.here, ["x.js"]⟩ ⟨.here, ["out"]⟩

/-- The result for an output that cannot take its place. -/
def refusal (name : Text) : FileResult where
  input := "x.js"
  output := none
  failure := some
    { stage := .write
      message := "[Errno 21] Is a directory: '/home/out/." ++ name ++ ".XXXXXXXX.tmp' -> 'out/" ++
        name ++ "'" }

/-- An output that cannot take its place leaves nothing. -/
theorem file_leaves_nothing :
    ((blockedWork {}).run (blocked "x.ts")).1 = .ok (refusal "x.ts") ∧
      ((blockedWork {}).run (blocked "x.ts")).2.Same (blocked "x.ts") := by
  have refused : ((blockedWork {}).run (blocked "x.ts")).1 = .ok (refusal "x.ts") := by
    decide +kernel
  have ends := Script.ends_run (blockedWork {}) (blocked "x.ts")
  rw [refused] at ends
  refine ⟨refused, ?_⟩
  by_contra changed
  cases ((file_leaves {} _ _ _ ends rfl).mp changed).1

/-- The record cannot take its place, and the output without it stays. -/
theorem file_leaves_output :
    ((blockedWork { writeRecord := true }).run (blocked "x.analysis.json")).1 =
        .ok (refusal "x.analysis.json") ∧
      ¬ ((blockedWork { writeRecord := true }).run (blocked "x.analysis.json")).2.Same
        (blocked "x.analysis.json") := by
  refine ⟨by decide +kernel, fun same => ?_⟩
  have entries := same.entries ["home", "out", "x.ts"]
  revert entries
  decide +kernel

end Batch

end TypeGloss
