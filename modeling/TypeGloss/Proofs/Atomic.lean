import TypeGloss.Proofs.Outcomes

/-!
# Writing at once

Writing a text either fails, and every place has what it had, or succeeds, and then the place that
the path of the target reaches has the text and every other place has what it had. In either case
nothing is left of the temporary file. This holds whichever operations are refused, as long as
files can be removed.
-/

namespace TypeGloss

namespace Table

variable {Key α : Type} [DecidableEq Key]

theorem get?_erase (table : Table Key α) (key wanted : Key) :
    (table.erase key).get? wanted = if key = wanted then none else table.get? wanted := by
  induction table with
  | nil => simp [erase, get?]
  | cons entry rest ih =>
    obtain ⟨old, value⟩ := entry
    by_cases gone : old = key
    · subst gone
      rw [erase, List.filter_cons_of_neg (by simp), ← erase, ih, get?]
      split <;> rfl
    · rw [erase, List.filter_cons_of_pos (by simpa using gone), ← erase, get?, get?, ih]
      by_cases found : old = wanted
      · rw [if_pos found, if_pos found, if_neg (found ▸ Ne.symm gone)]
      · rw [if_neg found, if_neg found]

end Table

namespace FileSystem

variable {f g fs : FileSystem} {place : List Text} {path : Text}

theorem entry_put (inside : place ≠ []) (entry : FileEntry) (p : List Text) :
    entry? (fs.put place entry) p = if place = p then some entry else fs.entry? p := by
  cases p with
  | nil =>
    unfold entry?
    simp [inside]
  | cons => exact Table.get?_insert _ _ _ _

theorem entry_clear (inside : place ≠ []) (p : List Text) :
    entry? (fs.clear place) p = if place = p then none else fs.entry? p := by
  cases p with
  | nil =>
    unfold entry?
    simp [inside]
  | cons => exact Table.get?_erase _ _ _

/-- Two file systems with the same working directory and the same at every place. -/
structure Same (f g : FileSystem) : Prop where
  home : f.home = g.home
  entries : ∀ p, f.entry? p = g.entry? p

theorem Same.refl (fs : FileSystem) : fs.Same fs := ⟨rfl, fun _ => rfl⟩

theorem Same.trans {h : FileSystem} (first : f.Same g) (second : g.Same h) : f.Same h :=
  ⟨first.home.trans second.home, fun p => (first.entries p).trans (second.entries p)⟩

theorem Same.locate (same : f.Same g) : f.locate path = g.locate path :=
  locate_congr same.home fun p _ => same.entries p

theorem Reaches.ne_nil (reaches : fs.Reaches path place) : place ≠ [] := by
  obtain ⟨before, name, rfl, -⟩ := reaches.last
  simp

/-- A file that is put where a path reaches is found there. -/
theorem Reaches.locate_put (reaches : fs.Reaches path place) (content : Bytes) :
    (fs.put place (.file content)).locate path = .ok (.file place content) := by
  have inside := reaches.ne_nil
  have holds : entry? (fs.put place (.file content)) place = some (.file content) := by
    rw [entry_put inside, if_pos rfl]
  refine reaches.locate (g := fs.put place (.file content)) rfl (fun p directory => ?_) holds
  have other : place ≠ p := by
    rintro rfl
    exact reaches.entry_ne directory
  rw [entry_put inside, if_neg other, directory]

/-- Makes an empty file where nothing is, and gives its path. -/
def makeFile (fs : FileSystem) (path : Text) : Except FileError Text × FileSystem :=
  match fs.locate path with
  | .ok (.vacant place) => (.ok path, fs.put place (.file []))
  | .ok _ => (.error { cause := .alreadyExists, path }, fs)
  | .error cause => (.error { cause, path }, fs)

/-- A new file is refused, or put where nothing was. -/
theorem makeFile_cases (fs : FileSystem) (path : Text) :
    (∃ e, fs.makeFile path = (.error e, fs)) ∨
      ∃ place, fs.Reaches path place ∧ fs.entry? place = none ∧
        fs.makeFile path = (.ok path, fs.put place (.file [])) := by
  unfold makeFile
  split
  · rename_i place located
    have holds := (follow_place (follow_of_locate located) rfl).2
    exact .inr ⟨place, ⟨_, located, rfl⟩, holds, rfl⟩
  · exact .inl ⟨_, rfl⟩
  · exact .inl ⟨_, rfl⟩

/-- A temporary file is refused, or put where nothing was. -/
theorem createTemporary_cases (fs : FileSystem) (target : Path) :
    (∃ e, fs.createTemporary target = (.error e, fs)) ∨
      ∃ path place, fs.Reaches path place ∧ fs.entry? place = none ∧
        fs.createTemporary target = (.ok path, fs.put place (.file [])) :=
  (fs.makeFile_cases _).imp_right fun made => ⟨_, made⟩

/-- A file that is found is moved, or the move is refused. -/
theorem rename_cases {content : Bytes} (target : Text)
    (located : fs.locate path = .ok (.file place content)) :
    (∃ e, fs.rename path target = (.error e, fs)) ∨
      ∃ goal, fs.Reaches target goal ∧
        fs.rename path target = (.ok (), (fs.clear place).put goal (.file content)) := by
  unfold rename
  rw [located]
  cases found : fs.locate target with
  | error => exact .inl ⟨_, rfl⟩
  | ok what =>
    cases what with
    | directory => exact .inl ⟨_, rfl⟩
    | file goal => exact .inr ⟨goal, ⟨_, found, rfl⟩, rfl⟩
    | vacant goal => exact .inr ⟨goal, ⟨_, found, rfl⟩, rfl⟩

/-- The replies that a file system may give to a request, each with the file system behind. Besides
its own answer, every operation that changes or reads files may be refused, except a removal. A
write that is refused may leave anything in its file, and a temporary file may be put wherever
nothing is. -/
inductive Replies (fs : FileSystem) : (r : Request) → r.Reply → FileSystem → Prop
  | answered (r : Request) : Replies fs r (fs.answer r).1 (fs.answer r).2
  | unread (path : Text) (e : FileError) : Replies fs (.read path) (.error e) fs
  | unmade (path : Text) (e : FileError) : Replies fs (.makeDirectory path) (.error e) fs
  | uncreated (target : Path) (e : FileError) :
      Replies fs (.createTemporary target) (.error e) fs
  | created (target : Path) {path : Text} {place : List Text} (reaches : fs.Reaches path place)
      (vacant : fs.entry? place = none) :
      Replies fs (.createTemporary target) (.ok path) (fs.put place (.file []))
  | unwritten (path : Text) (content left : Bytes) (e : FileError) :
      Replies fs (.write path content) (.error e) (fs.write path left).2
  | unmoved (path target : Text) (e : FileError) : Replies fs (.rename path target) (.error e) fs

namespace Replies

variable {after : FileSystem}

theorem ofRead {reply : Except FileError Bytes} (replied : fs.Replies (.read path) reply after) :
    after = fs ∧ ∀ content, reply = .ok content → fs.read path = .ok content := by
  cases replied with
  | answered => exact ⟨rfl, fun _ read => read⟩
  | unread => exact ⟨rfl, nofun⟩

theorem ofCreate {target : Path} {reply : Except FileError Text}
    (replied : fs.Replies (.createTemporary target) reply after) :
    (∃ e, reply = .error e ∧ after = fs) ∨
      ∃ path place, reply = .ok path ∧ after = fs.put place (.file []) ∧ fs.Reaches path place ∧
        fs.entry? place = none := by
  cases replied with
  | answered =>
    change (∃ e, (fs.createTemporary target).1 = _ ∧ (fs.createTemporary target).2 = fs) ∨
      ∃ path place, (fs.createTemporary target).1 = _ ∧ (fs.createTemporary target).2 = _ ∧ _
    rcases fs.createTemporary_cases target with ⟨e, refused⟩ | ⟨path, place, reaches, vacant, made⟩
    · rw [refused]
      exact .inl ⟨e, rfl, rfl⟩
    · rw [made]
      exact .inr ⟨path, place, rfl, rfl, reaches, vacant⟩
  | uncreated _ e => exact .inl ⟨e, rfl, rfl⟩
  | created _ reaches vacant => exact .inr ⟨_, _, rfl, rfl, reaches, vacant⟩

theorem ofWrite {content old : Bytes} {reply : Except FileError Unit}
    (replied : fs.Replies (.write path content) reply after)
    (located : fs.locate path = .ok (.file place old)) :
    (∃ e left, reply = .error e ∧ after = fs.put place (.file left)) ∨
      reply = .ok () ∧ after = fs.put place (.file content) := by
  have wrote (given : Bytes) : fs.write path given = (.ok (), fs.put place (.file given)) := by
    rw [write, located]
  cases replied with
  | answered => exact .inr ⟨congrArg Prod.fst (wrote content), congrArg Prod.snd (wrote content)⟩
  | unwritten _ _ left e => exact .inl ⟨e, left, rfl, congrArg Prod.snd (wrote left)⟩

theorem ofRename {content : Bytes} {target : Text} {reply : Except FileError Unit}
    (replied : fs.Replies (.rename path target) reply after)
    (located : fs.locate path = .ok (.file place content)) :
    (∃ e, reply = .error e ∧ after = fs) ∨
      ∃ goal, fs.Reaches target goal ∧ reply = .ok () ∧
        after = (fs.clear place).put goal (.file content) := by
  cases replied with
  | answered =>
    change (∃ e, (fs.rename path target).1 = _ ∧ (fs.rename path target).2 = fs) ∨
      ∃ goal, _ ∧ (fs.rename path target).1 = _ ∧ (fs.rename path target).2 = _
    rcases rename_cases target located with ⟨e, refused⟩ | ⟨goal, found, moved⟩
    · rw [refused]
      exact .inl ⟨e, rfl, rfl⟩
    · rw [moved]
      exact .inr ⟨goal, found, rfl, rfl⟩
  | unmoved _ _ e => exact .inl ⟨e, rfl, rfl⟩

theorem ofRemove {content : Bytes} {reply : Except FileError Unit}
    (replied : fs.Replies (.remove path) reply after)
    (located : fs.locate path = .ok (.file place content)) : after = fs.clear place := by
  cases replied
  change (fs.remove path).2 = _
  rw [remove, located]

end Replies

end FileSystem

namespace Script

variable {α β : Type} {fs after : FileSystem}

theorem run_bind (s : Script α) (next : α → Script β) (fs : FileSystem) :
    (s >>= next).run fs = (next (s.run fs).1).run (s.run fs).2 := run_andThen s next fs

/-- A script that starts on a file system ends with a result on another, whichever of the replies
that may be given it gets. -/
inductive Ends : Script α → FileSystem → α → FileSystem → Prop
  | done {result : α} {fs : FileSystem} : Ends (.done result) fs result fs
  | ask {request : Request} {next : request.Reply → Script α} {reply : request.Reply}
      {fs between after : FileSystem} {result : α} (replied : fs.Replies request reply between)
      (rest : Ends (next reply) between result after) : Ends (.ask request next) fs result after

/-- Running a script is one way to end it. -/
theorem ends_run (s : Script α) (fs : FileSystem) : s.Ends fs (s.run fs).1 (s.run fs).2 := by
  induction s generalizing fs with
  | done => exact .done
  | ask request next ih => exact .ask (.answered request) (ih _ _)

/-- The end of two scripts one after the other. -/
theorem Ends.split {s : Script α} {next : α → Script β} {result : β}
    (ends : (s >>= next).Ends fs result after) :
    ∃ first between, s.Ends fs first between ∧ (next first).Ends between result after := by
  change (s.andThen next).Ends fs result after at ends
  induction s generalizing fs with
  | done first => exact ⟨first, fs, .done, ends⟩
  | ask request inner ih =>
    obtain _ | @⟨_, _, reply, _, between, _, _, replied, ends⟩ := ends
    obtain ⟨first, middle, endsFirst, endsRest⟩ := ih reply ends
    exact ⟨first, middle, .ask replied endsFirst, endsRest⟩

theorem Ends.asked {r : Request} {next : r.Reply → Script β} {result : β}
    (ends : (request r >>= next).Ends fs result after) :
    ∃ reply between, fs.Replies r reply between ∧ (next reply).Ends between result after := by
  obtain _ | @⟨_, _, reply, _, between, _, _, replied, ends⟩ := ends
  exact ⟨reply, between, replied, ends⟩

theorem Ends.eq {returned result : α} (ends : (pure returned : Script α).Ends fs result after) :
    result = returned ∧ after = fs := by
  cases ends
  exact ⟨rfl, rfl⟩

/-- What writing a text does: nothing, or the text is where the path of the target reaches. -/
inductive Wrote (fs : FileSystem) (target text : Text) : Except WriteError Unit × FileSystem → Prop
  | failed {e : WriteError} {after : FileSystem} (same : after.Same fs) :
      Wrote fs target text (.error e, after)
  | written {content : Bytes} {goal : List Text} {after : FileSystem}
      (encoded : Utf8.encode text = .ok content) (free : fs.entry? goal ≠ some .directory)
      (same : after.Same (fs.put goal (.file content)))
      (located : after.locate target = .ok (.file goal content)) :
      Wrote fs target text (.ok (), after)

section Temporary

variable {path target text : Text} {place : List Text} {content : Bytes} {now : FileSystem}
  {result : Except WriteError Unit}

/-- Nothing is left of a temporary file that is given up. -/
theorem Ends.gaveUp {e : WriteError} (ends : (giveUp path e).Ends now result after)
    (reaches : fs.Reaches path place) (vacant : fs.entry? place = none)
    (put : now.Same (fs.put place (.file content))) : Wrote fs target text (result, after) := by
  have inside := reaches.ne_nil
  have located : now.locate path = .ok (.file place content) :=
    put.locate.trans (reaches.locate_put content)
  obtain ⟨reply, cleared, replied, ends⟩ := ends.asked
  obtain ⟨rfl, rfl⟩ := ends.eq
  obtain rfl := replied.ofRemove located
  refine .failed ⟨put.home, fun p => ?_⟩
  rw [FileSystem.entry_clear inside, put.entries, FileSystem.entry_put inside]
  split
  · rename_i here
    rw [← here, vacant]
  · rfl

/-- A temporary file with the text is moved to the target, or given up. -/
theorem Ends.moved {next : Except FileError Unit → Script (Except WriteError Unit)}
    (ends : (request (.rename path target) >>= next).Ends now result after)
    (encoded : Utf8.encode text = .ok content) (reaches : fs.Reaches path place)
    (vacant : fs.entry? place = none) (put : now.Same (fs.put place (.file content)))
    (refuse : ∀ e, next (.error e) = giveUp path (.refused e))
    (accept : next (.ok ()) = pure (.ok ())) : Wrote fs target text (result, after) := by
  have inside := reaches.ne_nil
  have located : now.locate path = .ok (.file place content) :=
    put.locate.trans (reaches.locate_put content)
  obtain ⟨reply, between, replied, endsNext⟩ := ends.asked
  rcases replied.ofRename located with ⟨e, rfl, rfl⟩ | ⟨goal, found, rfl, moved⟩
  · rw [refuse] at endsNext
    exact endsNext.gaveUp reaches vacant put
  rw [accept] at endsNext
  obtain ⟨rfl, rfl⟩ := endsNext.eq
  have goalInside := found.ne_nil
  have entryNow (p : List Text) :
      now.entry? p = if place = p then some (.file content) else fs.entry? p := by
    rw [put.entries, FileSystem.entry_put inside]
  have entryAfter (p : List Text) :
      after.entry? p = if goal = p then some (.file content) else fs.entry? p := by
    rw [moved, FileSystem.entry_put goalInside, FileSystem.entry_clear inside, entryNow]
    split
    · rfl
    split
    · rename_i here
      rw [← here, vacant]
    · rfl
  have free : fs.entry? goal ≠ some .directory := by
    intro directory
    have notDirectory := found.entry_ne
    rw [entryNow] at notDirectory
    split at notDirectory
    · rename_i here
      rw [← here, vacant] at directory
      cases directory
    · exact notDirectory directory
  have home : after.home = now.home := by
    rw [moved]
    rfl
  have same : after.Same (fs.put goal (.file content)) :=
    ⟨home.trans put.home, fun p => by rw [entryAfter, FileSystem.entry_put goalInside]⟩
  have directories (p : List Text) (directory : now.entry? p = some .directory) :
      after.entry? p = some .directory := by
    have other : goal ≠ p := by
      rintro rfl
      exact found.entry_ne directory
    rw [entryNow] at directory
    rw [entryAfter, if_neg other]
    split at directory
    · cases directory
    · exact directory
  have holds : after.entry? goal = some (.file content) := by rw [entryAfter, if_pos rfl]
  exact .written encoded free same (found.locate home.symm directories holds)

/-- Writing is atomic, whatever is refused. -/
theorem Ends.wrote {target : Path} (ends : (writeAtomic target text).Ends fs result after) :
    Wrote fs target.text text (result, after) := by
  unfold writeAtomic at ends
  split at ends
  · obtain ⟨rfl, rfl⟩ := ends.eq
    exact .failed (.refl after)
  obtain ⟨reply, empty, replied, endsNext⟩ := ends.asked
  rcases replied.ofCreate with ⟨e, rfl, rfl⟩ | ⟨path, place, rfl, rfl, reaches, vacant⟩
  · obtain ⟨rfl, rfl⟩ := endsNext.eq
    exact .failed (.refl after)
  dsimp only at endsNext
  split at endsNext
  · exact endsNext.gaveUp reaches vacant (.refl _)
  rename_i content encoded
  obtain ⟨reply, filled, replied, endsLast⟩ := endsNext.asked
  -- What the temporary file held before is of no account.
  have put (given : Bytes) : ((fs.put place (.file [])).put place (.file given)).Same
      (fs.put place (.file given)) := by
    have inside := reaches.ne_nil
    refine ⟨rfl, fun p => ?_⟩
    rw [FileSystem.entry_put inside, FileSystem.entry_put inside, FileSystem.entry_put inside]
    split <;> rfl
  rcases replied.ofWrite (reaches.locate_put []) with ⟨e, left, rfl, rfl⟩ | ⟨rfl, rfl⟩
  · exact endsLast.gaveUp reaches vacant (put left)
  · exact endsLast.moved encoded reaches vacant (put content) (fun _ => rfl) rfl

end Temporary

/-- Writing is atomic. -/
theorem run_writeAtomic (fs : FileSystem) (target : Path) (text : Text) :
    Wrote fs target.text text ((writeAtomic target text).run fs) := (ends_run _ fs).wrote

end Script

end TypeGloss
