import TypeGloss.Proofs.Encodable

/-!
# Outcomes of a batch

Whatever the replies to its requests are, the work on a batch ends with one result for each input,
in order, if the directory for outputs is there, no path is one that no file operation takes, and
every text that is worked out has an encoding. The texts of records always have one.
-/

namespace TypeGloss

/-- A file operation with the reply to it. -/
structure Exchange where
  /-- The operation. -/
  request : Request
  /-- What it was answered with. -/
  reply : request.Reply

namespace Script

variable {α β : Type}

/-- A script ends with a result after a list of exchanges, wherever the replies come from. -/
inductive Goes : Script α → List Exchange → α → Prop
  | done {result : α} : Goes (.done result) [] result
  | ask {request : Request} {next : request.Reply → Script α} {reply : request.Reply}
      {log : List Exchange} {result : α} (rest : Goes (next reply) log result) :
      Goes (.ask request next) (⟨request, reply⟩ :: log) result

/-- The exchanges of a script with a file system. -/
def log : Script α → FileSystem → List Exchange
  | .done _, _ => []
  | .ask request next, fs =>
    let (reply, fs) := fs.answer request
    ⟨request, reply⟩ :: log (next reply) fs

/-- The exchanges of two scripts one after the other on a file system. -/
theorem log_bind (s : Script α) (next : α → Script β) (fs : FileSystem) :
    (s >>= next).log fs = s.log fs ++ (next (s.run fs).1).log (s.run fs).2 := by
  induction s generalizing fs with
  | done => rfl
  | ask request rest ih => exact congrArg (_ :: ·) (ih _ _)

/-- A script on a file system ends with its result after its exchanges. -/
theorem goes_run (s : Script α) (fs : FileSystem) : s.Goes (s.log fs) (s.run fs).1 := by
  induction s generalizing fs with
  | done => exact .done
  | ask request next ih => exact .ask (ih _ _)

variable {log : List Exchange}

/-- The exchanges of two scripts one after the other. -/
theorem Goes.split {s : Script α} {next : α → Script β} {result : β}
    (goes : (s >>= next).Goes log result) :
    ∃ first rest between, log = first ++ rest ∧ s.Goes first between ∧
      (next between).Goes rest result := by
  change (s.andThen next).Goes log result at goes
  induction s generalizing log with
  | done between => exact ⟨[], log, between, rfl, .done, goes⟩
  | ask request inner ih =>
    obtain _ | @⟨_, _, reply, log, _, goes⟩ := goes
    obtain ⟨first, rest, between, rfl, goesFirst, goesRest⟩ := ih reply goes
    exact ⟨_, rest, between, rfl, .ask goesFirst, goesRest⟩

/-- What follows on a script whose exchanges are known. -/
theorem Goes.after {s : Script α} {next : α → Script β} {first : List Exchange} {between : α}
    {result : β} (goesFirst : s.Goes first between)
    (goes : (s >>= next).Goes (first ++ log) result) : (next between).Goes log result := by
  change (s.andThen next).Goes (first ++ log) result at goes
  induction goesFirst with
  | done => exact goes
  | ask rest ih =>
    cases goes with
    | ask goes => exact ih goes

/-- A request is one exchange. -/
theorem Goes.asked {r : Request} {next : r.Reply → Script β} {result : β}
    (goes : (request r >>= next).Goes log result) :
    ∃ reply rest, log = ⟨r, reply⟩ :: rest ∧ (next reply).Goes rest result := by
  obtain _ | @⟨_, _, reply, log, _, goes⟩ := goes
  exact ⟨reply, log, rfl, goes⟩

theorem Goes.eq {returned result : α} (goes : (pure returned : Script α).Goes log result) :
    result = returned := by
  cases goes
  rfl

theorem Goes.gaveUp {temporary : Text} {e : WriteError} {result : Except WriteError Unit}
    (goes : (giveUp temporary e).Goes log result) : result = .error e := by
  obtain ⟨reply, rest, -, goes⟩ := goes.asked
  exact goes.eq

/-- Writing a text that has an encoding to a path that file operations take can only be refused. -/
theorem Goes.writeAtomic {target : Path} {text : Text} {result : Except WriteError Unit}
    (goes : (writeAtomic target text).Goes log result) (taken : PathFault.of? target.text = none)
    (encodable : text.isEncodable = true) :
    result = .ok () ∨ ∃ e, result = .error (.refused e) := by
  obtain ⟨content, encoded⟩ := Utf8.encode_of_isEncodable encodable
  simp only [Script.writeAtomic, taken, encoded] at goes
  obtain ⟨created | temporary, rest, -, goes⟩ := goes.asked
  · exact .inr ⟨_, goes.eq⟩
  obtain ⟨written | written, rest, -, goes⟩ := goes.asked
  · exact .inr ⟨_, goes.gaveUp⟩
  obtain ⟨renamed | renamed, rest, -, goes⟩ := goes.asked
  · exact .inr ⟨_, goes.gaveUp⟩
  · exact .inl goes.eq

end Script

namespace Batch

open Script (Goes)

variable {options : Options} {directory : Path} {log : List Exchange}

/-- Whether the text that is worked out for a content that is read has an encoding. -/
def isEncodable (options : Options) : Exchange → Bool
  | ⟨.read name, .ok content⟩ =>
    match transpile options name content with
    | .ok transpiled => transpiled.text.isEncodable
    | .error _ => true
  | _ => true

theorem isEncodable_read {name : Text} {content : Bytes} {t : Transpiled}
    (encodable : isEncodable options ⟨.read name, .ok content⟩ = true)
    (worked : transpile options name content = .ok t) : t.text.isEncodable = true := by
  simpa [isEncodable, worked] using encodable

theorem isEncodable_recordText (record : Record) : (recordText record).isEncodable = true := by
  simp [recordText, JsonValue.isEncodable_render]

/-- Writing outputs that have an encoding, for paths that file operations take, can only be
refused. -/
theorem writeOutputs_result {source : Path} {t : Transpiled}
    {result : Except Script.WriteError Unit}
    (goes : (writeOutputs options source (source.outputFor directory) t).Goes log result)
    (taken : PathFault.of? directory.text = none) (input : PathFault.of? source.text = none)
    (encodable : t.text.isEncodable = true) :
    result = .ok () ∨ ∃ e, result = .error (.refused e) := by
  obtain ⟨first, rest, written, -, goesFirst, goesRest⟩ := goes.split
  have target : PathFault.of? (source.outputFor directory).text = none :=
    Path.of?_child_stem input taken (by decide)
  have record : PathFault.of?
      ((source.outputFor directory).withName (source.stem ++ ".analysis.json")).text = none := by
    have shape : (source.outputFor directory).withName (source.stem ++ ".analysis.json") =
        directory.child (source.stem ++ ".analysis.json") := by
      simp [Path.outputFor, Path.withName, Path.parent, Path.child]
    rw [shape]
    exact Path.of?_child_stem input taken (by decide)
  rcases goesFirst.writeAtomic target (by simp [encodable]) with rfl | ⟨e, rfl⟩
  · dsimp only at goesRest
    split at goesRest
    · exact goesRest.writeAtomic record (isEncodable_recordText t.record)
    · exact .inl goesRest.eq
  · exact .inr ⟨e, goesRest.eq⟩

/-- The work on one file ends with a result for it. -/
theorem file_result {source : Path} {outcome : Except Interruption FileResult}
    (goes : (file options source directory).Goes log outcome)
    (taken : PathFault.of? directory.text = none) (input : PathFault.of? source.text = none)
    (encodable : ∀ exchange ∈ log, isEncodable options exchange = true) :
    ∃ result, outcome = .ok result ∧ result.input = source.text := by
  simp only [file, input] at goes
  obtain ⟨refused | content, rest, rfl, goesOn⟩ := goes.asked
  · obtain rfl := goesOn.eq
    exact ⟨_, rfl, rfl⟩
  dsimp only at goesOn
  split at goesOn
  · obtain rfl := goesOn.eq
    exact ⟨_, rfl, rfl⟩
  rename_i transpiled worked
  have encodable := isEncodable_read (encodable _ List.mem_cons_self) worked
  obtain ⟨first, rest, written, -, goesFirst, goesRest⟩ := goesOn.split
  rcases writeOutputs_result goesFirst taken input encodable with rfl | ⟨e, rfl⟩
  all_goals
    obtain rfl := goesRest.eq
    exact ⟨_, rfl, rfl⟩

/-- Puts the result for the first input in front of those for the others. -/
def including (result : FileResult) (others : Except Interruption (List FileResult)) :
    Script (Except Interruption (List FileResult)) :=
  match others with
  | .error stop => return .error stop
  | .ok results => return .ok (result :: results)

/-- Work on a list of files that takes the first file first, and the others after it if it has a
result. -/
structure WorksThrough (options : Options) (directory : Path)
    (work : List Path → Script (Except Interruption (List FileResult))) : Prop where
  nil : work [] = pure (.ok [])
  cons : ∀ source rest, ∃ next, work (source :: rest) = file options source directory >>= next ∧
    (∀ result, next (.ok result) = work rest >>= including result) ∧
    ∀ stop log outcome, (next (.error stop)).Goes log outcome → outcome = .error stop

theorem worksThrough_inTurn : WorksThrough options directory (inTurn options directory) where
  nil := rfl
  cons _ _ := ⟨_, rfl, fun _ => rfl, fun _ _ _ goes => goes.eq⟩

theorem worksThrough_allOf : WorksThrough options directory (allOf options directory) where
  nil := rfl
  cons _ rest := by
    refine ⟨_, rfl, fun result => ?_, fun stop log outcome goes => ?_⟩
    · exact congrArg (allOf options directory rest >>= ·)
        (funext fun others => by cases others <;> rfl)
    · obtain ⟨_, _, others, -, -, last⟩ := goes.split
      cases others <;> exact last.eq

/-- The work on files ends with a result for each, in order. -/
theorem WorksThrough.results {work : List Path → Script (Except Interruption (List FileResult))}
    (through : WorksThrough options directory work) {inputs : List Path}
    {outcome : Except Interruption (List FileResult)} (goes : (work inputs).Goes log outcome)
    (taken : PathFault.of? directory.text = none)
    (each : ∀ input ∈ inputs, PathFault.of? input.text = none)
    (encodable : ∀ exchange ∈ log, isEncodable options exchange = true) :
    ∃ results, outcome = .ok results ∧
      results.map FileResult.input = inputs.map Path.text := by
  induction inputs generalizing log outcome with
  | nil =>
    rw [through.nil] at goes
    exact ⟨[], goes.eq, rfl⟩
  | cons source rest ih =>
    obtain ⟨hereTaken, restTaken⟩ := List.forall_mem_cons.mp each
    obtain ⟨next, shape, continues, -⟩ := through.cons source rest
    rw [shape] at goes
    obtain ⟨first, later, between, rfl, goesFirst, goesLater⟩ := goes.split
    obtain ⟨hereEncodable, laterEncodable⟩ := List.forall_mem_append.mp encodable
    obtain ⟨result, rfl, named⟩ := file_result goesFirst taken hereTaken hereEncodable
    rw [continues result] at goesLater
    obtain ⟨second, last, others, rfl, goesSecond, goesLast⟩ := goesLater.split
    have secondEncodable := (List.forall_mem_append.mp laterEncodable).1
    obtain ⟨results, rfl, inputs⟩ := ih goesSecond restTaken secondEncodable
    exact ⟨result :: results, goesLast.eq, by simp [named, inputs]⟩

/-- The work on a batch goes through its inputs once its directory for outputs is there. -/
theorem files_worksThrough (options : Options) (inputs : List Path)
    (taken : PathFault.of? directory.text = none) :
    ∃ work, WorksThrough options directory work ∧ ∃ next,
      files options inputs directory = Script.makeDirectories directory >>= next ∧
      next (.ok ()) = work inputs >>= (fun outcome => pure (outcome.mapError .interrupted)) ∧
      ∀ e, next (.error e) = pure (.error (.directory e)) := by
  unfold files
  rw [taken]
  by_cases few : options.jobs = 1 ∨ inputs.length < 2
  · exact ⟨_, worksThrough_inTurn, _, rfl, by simp only [if_pos few], fun _ => rfl⟩
  · exact ⟨_, worksThrough_allOf, _, rfl, by simp only [if_neg few], fun _ => rfl⟩

/-- Once its directory for outputs is there, a batch ends with one result for each input, in order,
whichever of its requests are refused. File operations must take the paths, and the texts that are
worked out must have encodings. -/
theorem files_results (options : Options) (inputs : List Path) (directory : Path)
    {before after : List Exchange} {outcome : Except Abort (List FileResult)}
    (made : (Script.makeDirectories directory).Goes before (.ok ()))
    (goes : (files options inputs directory).Goes (before ++ after) outcome)
    (taken : PathFault.of? directory.text = none)
    (each : ∀ input ∈ inputs, PathFault.of? input.text = none)
    (encodable : ∀ exchange ∈ after, isEncodable options exchange = true) :
    ∃ results, outcome = .ok results ∧
      results.map FileResult.input = inputs.map Path.text := by
  obtain ⟨work, through, next, shape, onward, -⟩ := files_worksThrough options inputs taken
  rw [shape] at goes
  have goesOn := made.after goes
  rw [onward] at goesOn
  obtain ⟨first, last, worked, rfl, goesFirst, goesLast⟩ := goesOn.split
  have encodable := (List.forall_mem_append.mp encodable).1
  obtain ⟨results, rfl, named⟩ := through.results goesFirst taken each encodable
  exact ⟨results, goesLast.eq, named⟩

/-- The bytes of a text in ASCII. -/
def ascii (t : Text) : Bytes := t.map (·.toNat.toUInt8)

/-- A working directory with files that are written in ASCII. -/
def working (files : List (String × String)) : FileSystem :=
  files.foldl (fun fs (path, content) =>
    fs.withFile (Path.ofText path).names (ascii content)) (.withHome ["home"])

/-- A missing file has a result too. -/
theorem files_results_missing :
    ∃ results, ((files {} [⟨.here, ["b.js"]⟩, ⟨.here, ["a.js"]⟩] ⟨.here, ["out"]⟩).run
      (working [("a.js", "let x=[1]")])).1 = .ok results ∧
      results.map FileResult.input = [("b.js" : Text), ("a.js" : Text)] := by
  let fs := working [("a.js", "let x=[1]")]
  let making := Script.makeDirectories ⟨.here, ["out"]⟩
  let batch := files {} [⟨.here, ["b.js"]⟩, ⟨.here, ["a.js"]⟩] ⟨.here, ["out"]⟩
  obtain ⟨next, shape⟩ : ∃ next, batch = making >>= next := ⟨_, rfl⟩
  have isMade : (making.run fs).1 = .ok () := by decide +kernel
  have made : making.Goes (making.log fs) (.ok ()) := isMade ▸ Script.goes_run making fs
  have goes : batch.Goes (batch.log fs) (batch.run fs).1 := Script.goes_run batch fs
  have encodable : ∀ exchange ∈ batch.log fs, isEncodable {} exchange = true := by decide +kernel
  have logged : batch.log fs = making.log fs ++ (next (making.run fs).1).log (making.run fs).2 := by
    rw [shape, Script.log_bind]
  rw [logged] at goes encodable
  exact files_results {} _ _ made goes (by decide) (by decide)
    (List.forall_mem_append.mp encodable).2

deriving instance DecidableEq for Abort

/-- A key that is written with the escape of a surrogate stops the work on the other file too. -/
theorem files_results_surrogate :
    ((Script.makeDirectories ⟨.here, ["out"]⟩).run
      (working [("a.js", "let x=\x7b\"\\ud800\":1\x7d"), ("b.js", "let y=1")])).1 = .ok () ∧
    ((files {} [⟨.here, ["a.js"]⟩, ⟨.here, ["b.js"]⟩] ⟨.here, ["out"]⟩).run
      (working [("a.js", "let x=\x7b\"\\ud800\":1\x7d"), ("b.js", "let y=1")])).1 =
      .error (.interrupted (.text { first := .surrogate 0, start := 13, length := 1 })) := by
  decide +kernel

end Batch

end TypeGloss
