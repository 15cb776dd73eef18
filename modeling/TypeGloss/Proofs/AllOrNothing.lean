import TypeGloss.Proofs.Atomic
import TypeGloss.Proofs.Temporary

/-!
# All or nothing

Each of the file operations that write a text may fail, whatever the files are like: the temporary
file may not be made, may be filled in part only, may not be moved and may not be removed. Still the
text is written as a whole and nothing else is changed, or it is not written and nothing is changed,
but for a temporary file that cannot be removed. The file that the target leads to has at every
moment what it had before, or all of the text.
-/

namespace TypeGloss

namespace Table

variable {Key α : Type} [DecidableEq Key]

theorem insert_insert (table : Table Key α) (key : Key) (old value : α) :
    (table.insert key old).insert key value = table.insert key value := by
  induction table with
  | nil => simp [insert]
  | cons entry rest ih =>
    obtain ⟨first, kept⟩ := entry
    by_cases here : first = key <;> simp [insert, here, ih]

/-- A new key that is erased again leaves the table as it was. -/
theorem erase_insert {table : Table Key α} {key : Key} (new : table.get? key = none) (value : α) :
    (table.insert key value).erase key = table := by
  induction table with
  | nil => simp [insert, erase]
  | cons entry rest ih =>
    obtain ⟨first, kept⟩ := entry
    rw [get?] at new
    split at new
    · cases new
    · rename_i other
      rw [insert, if_neg other, erase, List.filter_cons_of_pos (by simpa using other), ← erase,
        ih new]

end Table

namespace Path

/-- The text of a path ends as the name of the path does. -/
theorem getLast?_segments_name {p : Path} (some : p.names ≠ []) :
    (segments p.text).getLast? = (segments p.name).getLast? := by
  have shape : p.parent.child p.name = p := by
    obtain ⟨start, names⟩ := p
    simp [child, parent, name, List.getLast?_eq_some_getLast some, List.dropLast_concat_getLast]
  rw [← getLast?_segments_text p.parent p.name, shape]

/-- The text of a path without names ends in a dot or in a slash. -/
theorem length_le_of_names_nil {p : Path} (none : p.names = []) {last : Text}
    (isLast : (segments p.text).getLast? = some last) : last.length ≤ 1 := by
  have short : ∀ start, ∀ last ∈ (segments (text ⟨start, []⟩)).getLast?, last.length ≤ 1 := by
    intro start
    cases start <;> decide
  obtain ⟨start, names⟩ := p
  obtain rfl : names = [] := none
  exact short start last isLast

end Path

namespace FileSystem

variable {fs : FileSystem} {place goal : List Text} {path : Text}

theorem put_put (fs : FileSystem) (place : List Text) (old entry : FileEntry) :
    (fs.put place old).put place entry = fs.put place entry := by
  simp only [put, Table.insert_insert]

/-- A file that is put where nothing was and cleared leaves the files as they were. -/
theorem clear_put (inside : place ≠ []) (vacant : fs.entry? place = none) (entry : FileEntry) :
    (fs.put place entry).clear place = fs := by
  have new : fs.entries.get? place = none := by
    unfold entry? at vacant
    rwa [if_neg (by simpa using inside)] at vacant
  simp only [put, clear, Table.erase_insert new]

/-- The content of the file that a path leads to. -/
def content? (fs : FileSystem) (path : Text) : Option Bytes := (fs.read path).toOption

theorem content?_eq (fs : FileSystem) (path : Text) :
    fs.content? path = (fs.locate path).toOption.bind Found.content? := by
  unfold content? read
  split <;> simp_all [Except.toOption, Found.content?]

theorem reaches_iff :
    fs.Reaches path place ↔
      ∃ found, (fs.locate path).toOption = some found ∧ found.filePlace? = some place := by
  unfold Reaches
  cases fs.locate path <;> simp [Except.toOption]

/-- A file that is put where nothing was does not change where names lead, unless they lead there.
Names that lead past it still lead nowhere. -/
theorem toOption_follow_put (inside : place ≠ []) (vacant : fs.entry? place = none)
    (content : Bytes) {names here : List Text}
    (other : fs.follow names here ≠ .ok (.vacant place)) :
    ((fs.put place (.file content)).follow names here).toOption =
      (fs.follow names here).toOption := by
  induction names generalizing here with
  | nil => rfl
  | cons name rest ih =>
    unfold follow at other ⊢
    split
    · rw [if_pos ‹_›] at other
      exact ih other
    rw [if_neg ‹_›] at other
    split
    · rw [if_pos ‹_›] at other
      exact ih other
    rw [if_neg ‹_›] at other
    split
    · rfl
    rw [if_neg ‹_›] at other
    rw [entry_put inside]
    by_cases met : place = here ++ [name]
    · rw [if_pos met, ← met, vacant]
      rw [← met, vacant] at other
      cases rest with
      | nil => exact absurd rfl other
      | cons => rfl
    · rw [if_neg met]
      rcases entry : fs.entry? (here ++ [name]) with _ | _ | _
      · cases rest <;> rfl
      · rw [entry] at other
        exact ih other
      · cases rest <;> rfl

theorem toOption_locate_put (inside : place ≠ []) (vacant : fs.entry? place = none)
    (content : Bytes) (other : ¬ fs.Reaches path place) :
    ((fs.put place (.file content)).locate path).toOption = (fs.locate path).toOption := by
  unfold locate
  split
  · rfl
  split
  · rfl
  refine toOption_follow_put inside vacant content fun leads => other ⟨.vacant place, ?_, rfl⟩
  unfold locate
  rw [if_neg ‹_›, if_neg ‹_›]
  exact leads

/-- The end of the name of a temporary file. -/
def markedEnd (mark : Text) : Text := "." ++ mark ++ ".tmp"

/-- The name of a temporary file for a target, with any mark. -/
def markedName (target mark : Text) : Text := "." ++ target ++ markedEnd mark

/-- The path of a temporary file next to where a target is to be, with any mark. -/
def markedPath (fs : FileSystem) (target : Path) (mark : Text) : Text :=
  placeText (target.parent.fromRoot fs.home ++ [markedName target.name mark])

/-- A temporary file has a mark in its name. -/
theorem createTemporary_marked (fs : FileSystem) (target : Path) :
    ∃ turn, fs.createTemporary target = fs.makeFile (fs.markedPath target (mark turn)) := by
  obtain ⟨turn, -, named⟩ :=
    exists_isFirstFree fs (target.parent.fromRoot fs.home) target.name
  refine ⟨turn, ?_⟩
  have path : fs.markedPath target (mark turn) = placeText (target.parent.fromRoot fs.home ++
      [freeName fs (target.parent.fromRoot fs.home) target.name fs.entries.length 0]) := by
    rw [named, markedPath, markedName, markedEnd, temporaryName_eq]
    simp only [List.append_assoc]
  rw [path]
  rfl

/-- A text ends in a part without slashes. -/
theorem exists_whole_end (t : Text) :
    .scalar '/' ∉ t ∨ ∃ before rest, t = before ++ .scalar '/' :: rest ∧ .scalar '/' ∉ rest := by
  induction t with
  | nil => exact .inl nofun
  | cons c t ih =>
    rcases ih with whole | ⟨before, rest, rfl, whole⟩
    · by_cases slash : c = .scalar '/'
      · exact .inr ⟨[], t, by rw [slash]; rfl, whole⟩
      · exact .inl (by simpa [Ne.symm slash] using whole)
    · exact .inr ⟨c :: before, rest, rfl, whole⟩

/-- The marked name of a file ends in a longer segment than the name. -/
theorem exists_segments_marked (target : Text) {mark : Text} (whole : .scalar '/' ∉ mark) :
    ∃ last longer, (Path.segments target).getLast? = some last ∧
      (Path.segments (markedName target mark)).getLast? = some longer ∧
        last.length + 5 ≤ longer.length := by
  have alone {t : Text} (whole : .scalar '/' ∉ t) : (Path.segments t).getLast? = some t := by
    rw [Path.segments, Text.splitOn_of_not_mem whole]
    rfl
  have long : 5 ≤ (markedEnd mark).length := by simp [markedEnd, Text.ofString]
  have plain : .scalar '/' ∉ markedEnd mark := by simp [markedEnd, Text.ofString, whole]
  rcases exists_whole_end target with wholeTarget | ⟨before, rest, rfl, wholeRest⟩
  · refine ⟨target, markedName target mark, alone wholeTarget, alone ?_, ?_⟩
    · simp only [markedName, List.mem_append, not_or]
      exact ⟨⟨by decide, wholeTarget⟩, plain⟩
    · simp only [markedName, List.length_append]
      omega
  · refine ⟨rest, rest ++ markedEnd mark, ?_, ?_, by rw [List.length_append]; omega⟩
    · rw [Path.getLast?_segments_append, alone wholeRest]
    · have shape : markedName (before ++ .scalar '/' :: rest) mark =
          ("." ++ before) ++ .scalar '/' :: (rest ++ markedEnd mark) := by
        simp [markedName]
      rw [shape, Path.getLast?_segments_append, alone]
      simp [wholeRest, plain]

/-- A temporary file with a mark in its name is not where its target is to be. -/
theorem not_reaches_marked {target : Path} {mark : Text} (whole : .scalar '/' ∉ mark)
    (reaches : fs.Reaches (fs.markedPath target mark) place) :
    ¬ fs.Reaches target.text place := by
  intro reachesTarget
  obtain ⟨before, name, rfl, isLast⟩ := reachesTarget.last
  obtain ⟨_, marked, same, isMarked⟩ := reaches.last
  obtain rfl := (List.append_singleton_inj.mp same).2
  obtain ⟨last, longer, lastSegment, longerSegment, long⟩ :=
    exists_segments_marked target.name whole
  have path : fs.markedPath target mark =
      (Path.child ⟨.root, target.parent.fromRoot fs.home⟩ (markedName target.name mark)).text := by
    rw [Path.text_child]
    rfl
  rw [path, Path.getLast?_segments_text, longerSegment] at isMarked
  obtain rfl := Option.some.inj isMarked
  by_cases none : target.names = []
  · have := Path.length_le_of_names_nil none isLast
    omega
  · rw [Path.getLast?_segments_name none, lastSegment] at isLast
    have := congrArg List.length (Option.some.inj isLast)
    omega

end FileSystem

/-- What happens to file operations: which of them fail, each for any reason. -/
structure Chance where
  /-- A mark in the name of a temporary file, if it is not the first one that is free. -/
  mark : Option { mark : Text // .scalar '/' ∉ mark } := none
  /-- Why no temporary file is made. -/
  create : Option FileError := none
  /-- Why a text is not written, and what is left of it. -/
  write : Option (FileError × Bytes) := none
  /-- Why no file is moved. -/
  rename : Option FileError := none
  /-- Why no file is removed. -/
  remove : Option FileError := none

/-- The reply to a request if some operations fail, and the file system behind. -/
def FileSystem.answerUnder (chance : Chance) (fs : FileSystem) :
    (request : Request) → request.Reply × FileSystem
  | .createTemporary target =>
    match chance.create, chance.mark with
    | some e, _ => (.error e, fs)
    | none, some mark => fs.makeFile (fs.markedPath target mark)
    | none, none => fs.createTemporary target
  | .write path content =>
    match chance.write with
    | some (e, left) => (.error e, (fs.write path left).2)
    | none => fs.write path content
  | .rename path target =>
    match chance.rename with
    | some e => (.error e, fs)
    | none => fs.rename path target
  | .remove path =>
    match chance.remove with
    | some e => (.error e, fs)
    | none => fs.remove path
  | request => fs.answer request

namespace Script

variable {α : Type}

/-- The result of a script if some operations fail, and the file system behind. -/
def runUnder (chance : Chance) : Script α → FileSystem → α × FileSystem
  | .done result, fs => (result, fs)
  | .ask request next, fs =>
    let (reply, fs) := fs.answerUnder chance request
    runUnder chance (next reply) fs

/-- A script that starts on a file system passes another one: before a request, at the end, or while
a text is written. -/
inductive Passes (chance : Chance) : Script α → FileSystem → FileSystem → Prop
  | here {s : Script α} {fs : FileSystem} : Passes chance s fs fs
  | writing {path : Text} {content part : Bytes} {next : Except FileError Unit → Script α}
      {fs : FileSystem} (isPart : part <+: content) :
      Passes chance (.ask (.write path content) next) fs (fs.write path part).2
  | later {request : Request} {next : request.Reply → Script α} {fs now : FileSystem}
      (passes : Passes chance (next (fs.answerUnder chance request).1)
        (fs.answerUnder chance request).2 now) : Passes chance (.ask request next) fs now

/-- If no operation fails, a script runs as usual. -/
theorem runUnder_calm (s : Script α) (fs : FileSystem) : s.runUnder {} fs = s.run fs := by
  induction s generalizing fs with
  | done => rfl
  | ask request next ih =>
    have same : fs.answerUnder {} request = fs.answer request := by cases request <;> rfl
    rw [runUnder, run, same]
    exact ih _ _

end Script

namespace FileSystem

variable {chance : Chance} {fs : FileSystem} {path : Text} {place : List Text} {target : Path}

/-- A file that is found is moved to where a path reaches. -/
theorem rename_of_reaches {content : Bytes} {target : Text} {goal : List Text}
    (located : fs.locate path = .ok (.file place content)) (reaches : fs.Reaches target goal) :
    fs.rename path target = (.ok (), (fs.clear place).put goal (.file content)) := by
  obtain ⟨found, leads, isPlace⟩ := reaches
  unfold rename
  rw [located, leads]
  cases found <;> cases isPlace <;> rfl

/-- A temporary file next to a target: where nothing was, and not where the target is to be. -/
structure IsTemporary (fs : FileSystem) (target : Path) (path : Text) (place : List Text) :
    Prop where
  reaches : fs.Reaches path place
  vacant : fs.entry? place = none
  beside : ¬ fs.Reaches target.text place

/-- A temporary file is refused, or put next to its target. -/
theorem answerUnder_create (chance : Chance) (fs : FileSystem) (target : Path) :
    (∃ e, fs.answerUnder chance (.createTemporary target) = (.error e, fs)) ∨
      ∃ path place, IsTemporary fs target path place ∧
        fs.answerUnder chance (.createTemporary target) = (.ok path, fs.put place (.file [])) := by
  have marked {mark : Text} (whole : .scalar '/' ∉ mark) :
      (∃ e, fs.makeFile (fs.markedPath target mark) = (.error e, fs)) ∨
        ∃ path place, IsTemporary fs target path place ∧
          fs.makeFile (fs.markedPath target mark) = (.ok path, fs.put place (.file [])) := by
    rcases fs.makeFile_cases (fs.markedPath target mark) with
      refused | ⟨place, reaches, vacant, made⟩
    · exact .inl refused
    · exact .inr ⟨_, place, ⟨reaches, vacant, not_reaches_marked whole reaches⟩, made⟩
  unfold answerUnder
  dsimp only
  split
  · exact .inl ⟨_, rfl⟩
  · rename_i mark _ _
    exact marked mark.property
  · obtain ⟨turn, made⟩ := createTemporary_marked fs target
    rw [made]
    exact marked (not_mem_mark rfl (by decide) turn)

namespace IsTemporary

variable (temporary : IsTemporary fs target path place)

include temporary

theorem locate_put (content : Bytes) :
    (fs.put place (.file content)).locate path = .ok (.file place content) :=
  temporary.reaches.locate_put content

theorem toOption_locate_target (content : Bytes) :
    ((fs.put place (.file content)).locate target.text).toOption =
      (fs.locate target.text).toOption :=
  toOption_locate_put temporary.reaches.ne_nil temporary.vacant content temporary.beside

/-- What is done with a temporary file does not change what the target has. -/
theorem content?_target (content : Bytes) :
    (fs.put place (.file content)).content? target.text = fs.content? target.text := by
  rw [content?_eq, content?_eq, temporary.toOption_locate_target]

theorem reaches_target (content : Bytes) (goal : List Text) :
    (fs.put place (.file content)).Reaches target.text goal ↔ fs.Reaches target.text goal := by
  rw [reaches_iff, reaches_iff, temporary.toOption_locate_target]

theorem write_put (old content : Bytes) :
    (fs.put place (.file old)).write path content = (.ok (), fs.put place (.file content)) := by
  rw [write, temporary.locate_put]
  simp only [put_put]

/-- The temporary file is written, or something is left in it. -/
theorem answerUnder_write (chance : Chance) (content : Bytes) :
    (∃ e left, chance.write = some (e, left) ∧
        (fs.put place (.file [])).answerUnder chance (.write path content) =
          (.error e, fs.put place (.file left))) ∨
      (fs.put place (.file [])).answerUnder chance (.write path content) =
        (.ok (), fs.put place (.file content)) := by
  unfold answerUnder
  dsimp only
  split
  · rename_i e left failed
    exact .inl ⟨e, left, failed, by rw [temporary.write_put]⟩
  · exact .inr (temporary.write_put [] content)

/-- The temporary file takes the place of the target, or is not moved, either because moving fails
or because the target leads nowhere. -/
theorem answerUnder_rename (chance : Chance) (content : Bytes) :
    (∃ e, (chance.rename ≠ none ∨ ∀ goal, ¬ fs.Reaches target.text goal) ∧
        (fs.put place (.file content)).answerUnder chance (.rename path target.text) =
          (.error e, fs.put place (.file content))) ∨
      ∃ goal, fs.Reaches target.text goal ∧
        (fs.put place (.file content)).answerUnder chance (.rename path target.text) =
          (.ok (), fs.put goal (.file content)) := by
  unfold answerUnder
  dsimp only
  split
  · rename_i e failed
    exact .inl ⟨e, .inl (by simp [failed]), rfl⟩
  have located := temporary.locate_put content
  by_cases leads : ∃ goal, fs.Reaches target.text goal
  · obtain ⟨goal, reaches⟩ := leads
    refine .inr ⟨goal, reaches, ?_⟩
    rw [rename_of_reaches located ((temporary.reaches_target content goal).mpr reaches),
      clear_put temporary.reaches.ne_nil temporary.vacant]
  · rcases rename_cases target.text located with ⟨e, refused⟩ | ⟨goal, reaches, -⟩
    · exact .inl ⟨e, .inr (not_exists.mp leads), refused⟩
    · exact absurd ⟨goal, (temporary.reaches_target content goal).mp reaches⟩ leads

/-- The temporary file is removed, unless removing fails. -/
theorem answerUnder_remove (chance : Chance) (content : Bytes) :
    (chance.remove ≠ none ∧ ((fs.put place (.file content)).answerUnder chance (.remove path)).2 =
        fs.put place (.file content)) ∨
      ((fs.put place (.file content)).answerUnder chance (.remove path)).2 = fs := by
  unfold answerUnder
  dsimp only
  split
  · rename_i e failed
    exact .inl ⟨by simp [failed], rfl⟩
  · rw [remove, temporary.locate_put]
    exact .inr (clear_put temporary.reaches.ne_nil temporary.vacant _)

end IsTemporary

end FileSystem

namespace Script

open FileSystem (IsTemporary)

/-- Why a text is not written. -/
inductive Hindered (chance : Chance) (fs : FileSystem) (target : Path) (text : Text) : Prop
  /-- No file operation takes the path of the target. -/
  | path {fault : PathFault} (found : PathFault.of? target.text = some fault)
  /-- No temporary file is made. -/
  | create {e : FileError}
      (refused : fs.answerUnder chance (.createTemporary target) = (.error e, fs))
  /-- The text has no encoding. -/
  | encoding {fault : Utf8.EncodeFault} (unencoded : Utf8.encode text = .error fault)
  /-- The temporary file is not filled. -/
  | write (failed : chance.write ≠ none)
  /-- The temporary file is not moved, or there is no place to move it to. -/
  | rename (failed : chance.rename ≠ none ∨ ∀ goal, ¬ fs.Reaches target.text goal)

section Stages

variable (chance : Chance) (fs : FileSystem) (target : Path) (text : Text)

/-- The target has the content that it had, or all of a text. -/
def Intact (now : FileSystem) : Prop :=
  now.content? target.text = fs.content? target.text ∨
    ∃ content, Utf8.encode text = .ok content ∧ now.content? target.text = some content

/-- How writing a text ends: with the text where the target leads and no other change, or for a
reason and without a change, but for a temporary file that is not removed. -/
inductive Concluded : Except WriteError Unit × FileSystem → Prop
  | returned {content : Bytes} {goal : List Text} (encoded : Utf8.encode text = .ok content)
      (reaches : fs.Reaches target.text goal) : Concluded (.ok (), fs.put goal (.file content))
  | raised {e : WriteError} {after : FileSystem} (hindered : Hindered chance fs target text)
      (clean : after = fs ∨ chance.remove ≠ none ∧
        ∃ place left, fs.entry? place = none ∧ after = fs.put place (.file left)) :
      Concluded (.error e, after)

/-- A script on a file system ends well and leaves the target intact on the way. -/
structure Safe (s : Script (Except WriteError Unit)) (now : FileSystem) : Prop where
  ends : Concluded chance fs target text (s.runUnder chance now)
  intact : ∀ mid, s.Passes chance now mid → Intact fs target text mid

variable {chance fs target text} {now : FileSystem}

theorem Concluded.safe {result : Except WriteError Unit}
    (concluded : Concluded chance fs target text (result, now))
    (intact : Intact fs target text now) : Safe chance fs target text (.done result) now := by
  refine ⟨concluded, fun mid passes => ?_⟩
  cases passes
  exact intact

/-- One request is safe if the target is intact before it, while it is answered, and behind. -/
theorem Safe.ask {request : Request} {next : request.Reply → Script (Except WriteError Unit)}
    (rest : Safe chance fs target text (next (now.answerUnder chance request).1)
      (now.answerUnder chance request).2)
    (intact : Intact fs target text now)
    (midway : ∀ path content part, request = .write path content →
      Intact fs target text (now.write path part).2) :
    Safe chance fs target text (.ask request next) now := by
  refine ⟨rest.ends, fun mid passes => ?_⟩
  cases passes with
  | here => exact intact
  | writing => exact midway _ _ _ rfl
  | later passes => exact rest.intact mid passes

section Temporary

variable {path : Text} {place : List Text} (temporary : IsTemporary fs target path place)

include temporary

theorem intact_temporary (left : Bytes) :
    Intact fs target text (fs.put place (.file left)) := .inl (temporary.content?_target left)

theorem safe_giveUp (hindered : Hindered chance fs target text) (left : Bytes) (e : WriteError) :
    Safe chance fs target text (giveUp path e) (fs.put place (.file left)) := by
  have intact : Intact fs target text (fs.put place (.file left)) := intact_temporary temporary left
  refine .ask ?_ intact nofun
  rcases temporary.answerUnder_remove chance left with ⟨failed, kept⟩ | removed
  · rw [kept]
    exact (Concluded.raised hindered
      (.inr ⟨failed, place, left, temporary.vacant, rfl⟩)).safe intact
  · rw [removed]
    exact (Concluded.raised hindered (.inl rfl)).safe (.inl rfl)

theorem safe_rename {content : Bytes} (encoded : Utf8.encode text = .ok content)
    {next : Except FileError Unit → Script (Except WriteError Unit)}
    (refuse : ∀ e, next (.error e) = giveUp path (.refused e))
    (accept : next (.ok ()) = .done (.ok ())) :
    Safe chance fs target text (.ask (.rename path target.text) next)
      (fs.put place (.file content)) := by
  refine .ask ?_ (intact_temporary temporary content) nofun
  rcases temporary.answerUnder_rename chance content with ⟨e, failed, kept⟩ | ⟨goal, reaches, moved⟩
  · rw [kept, refuse]
    exact safe_giveUp temporary (.rename failed) content _
  · rw [moved, accept]
    refine (Concluded.returned encoded reaches).safe (.inr ⟨content, encoded, ?_⟩)
    rw [FileSystem.content?_eq, reaches.locate_put]
    rfl

theorem safe_write {content : Bytes}
    {next : Except FileError Unit → Script (Except WriteError Unit)}
    (refuse : ∀ e, next (.error e) = giveUp path (.refused e))
    (accept : Safe chance fs target text (next (.ok ())) (fs.put place (.file content))) :
    Safe chance fs target text (.ask (.write path content) next) (fs.put place (.file [])) := by
  refine .ask ?_ (intact_temporary temporary []) fun other given part same => ?_
  · rcases temporary.answerUnder_write chance content with ⟨e, left, failed, torn⟩ | written
    · rw [torn, refuse]
      exact safe_giveUp temporary (.write (by simp [failed])) left _
    · rw [written]
      exact accept
  · obtain ⟨rfl, rfl⟩ := Request.write.inj same
    rw [temporary.write_put]
    exact intact_temporary temporary part

end Temporary

theorem safe_writeAtomic (chance : Chance) (fs : FileSystem) (target : Path) (text : Text) :
    Safe chance fs target text (writeAtomic target text) fs := by
  unfold writeAtomic
  split
  · rename_i fault found
    exact (Concluded.raised (.path found) (.inl rfl)).safe (.inl rfl)
  refine .ask ?_ (.inl rfl) nofun
  rcases fs.answerUnder_create chance target with ⟨e, refused⟩ | ⟨path, place, temporary, made⟩
  · rw [refused]
    exact (Concluded.raised (.create refused) (.inl rfl)).safe (.inl rfl)
  · rw [made]
    cases encoded : Utf8.encode text with
    | error fault => exact safe_giveUp temporary (.encoding encoded) [] _
    | ok content =>
      exact safe_write temporary (fun _ => rfl)
        (safe_rename temporary encoded (fun _ => rfl) rfl)

end Stages

/-- Whatever the files are like and whichever operations fail, writing a text returns, and then the
target leads to the text and nothing else is changed, or raises, and then something failed and
nothing is changed, but for a temporary file that is not removed. At every moment the target has the
content that it had, or all of the text. -/
theorem writeAtomic_allOrNothing (chance : Chance) (fs : FileSystem) (target : Path)
    (text : Text) :
    let run := (writeAtomic target text).runUnder chance fs
    ((∃ content goal, run = (.ok (), fs.put goal (.file content)) ∧
        Utf8.encode text = .ok content ∧ run.2.locate target.text = .ok (.file goal content)) ∨
      ∃ e, run.1 = .error e ∧ Hindered chance fs target text ∧
        (run.2 = fs ∨ chance.remove ≠ none ∧
          ∃ place left, fs.entry? place = none ∧ run.2 = fs.put place (.file left))) ∧
    ∀ now, (writeAtomic target text).Passes chance fs now →
      now.content? target.text = fs.content? target.text ∨
        ∃ content, Utf8.encode text = .ok content ∧ now.content? target.text = some content := by
  intro run
  obtain ⟨ends, intact⟩ := safe_writeAtomic chance fs target text
  refine ⟨?_, intact⟩
  change Concluded chance fs target text run at ends
  generalize run = run at ends ⊢
  cases ends with
  | returned encoded reaches => exact .inl ⟨_, _, rfl, encoded, reaches.locate_put _⟩
  | raised hindered clean => exact .inr ⟨_, rfl, hindered, clean⟩

/-- A disk that is full in the middle of a text leaves the old file alone, and a run in which
nothing fails replaces it. -/
theorem writeAtomic_allOrNothing_full :
    let fs := Batch.working [("x.ts", "old")]
    let write := writeAtomic ⟨.here, ["x.ts"]⟩ "new"
    let full : Chance :=
      { write := some ({ cause := .other 28 "No space left on device", path := "x.ts" },
          Batch.ascii "ne") }
    ((write.runUnder full fs).1.isOk = false ∧ (write.runUnder full fs).2 = fs) ∧
      (write.run fs).1.isOk = true ∧
        ∃ goal, (write.run fs).2.locate "x.ts" = .ok (.file goal (Batch.ascii "new")) := by
  intro fs write full
  have raises : (write.runUnder full fs).1.isOk = false := by decide +kernel
  have returns : (write.run fs).1.isOk = true := by decide +kernel
  refine ⟨⟨raises, ?_⟩, returns, ?_⟩
  · rcases (writeAtomic_allOrNothing full fs ⟨.here, ["x.ts"]⟩ "new").1 with
      ⟨_, _, returned, -⟩ | ⟨_, -, -, same | ⟨failed, -⟩⟩
    · rw [returned] at raises
      cases raises
    · exact same
    · exact absurd rfl failed
  · rw [← runUnder_calm] at returns ⊢
    rcases (writeAtomic_allOrNothing {} fs ⟨.here, ["x.ts"]⟩ "new").1 with
      ⟨content, goal, -, encoded, located⟩ | ⟨_, raised, -⟩
    · obtain rfl : Batch.ascii "new" = content := Except.ok.inj encoded
      exact ⟨goal, located⟩
    · rw [raised] at returns
      cases returns

end Script

end TypeGloss
