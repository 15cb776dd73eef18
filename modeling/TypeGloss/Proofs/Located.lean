import TypeGloss.Files.Script

/-!
# Where paths lead

The text of a path is cut back into the names of the path. Following names asks only about the
places on the way, so two file systems that have the same there lead to the same place. A file, or a
place for one, is reached at the last name of a path, and stays reached as long as the directories
on the way stay.
-/

namespace TypeGloss

namespace Text

variable {c : CodePoint}

theorem splitOn_ne_nil (c : CodePoint) (t : Text) : splitOn c t ≠ [] := by
  induction t with
  | nil => nofun
  | cons d rest ih =>
    unfold splitOn
    split
    · nofun
    · split <;> nofun

theorem splitOn_of_not_mem {t : Text} (absent : c ∉ t) : splitOn c t = [t] := by
  induction t with
  | nil => rfl
  | cons d rest ih =>
    obtain ⟨other, later⟩ := not_or.mp (absent ∘ List.mem_cons.mpr)
    rw [splitOn, if_neg (Ne.symm other), ih later]

theorem splitOn_append_cons (s t : Text) :
    splitOn c (s ++ c :: t) = splitOn c s ++ splitOn c t := by
  induction s with
  | nil => simp [splitOn]
  | cons d rest ih =>
    rw [List.cons_append, splitOn, splitOn, ih]
    split
    · rfl
    · cases pieces : splitOn c rest with
      | nil => exact absurd pieces (splitOn_ne_nil c rest)
      | cons piece pieces => rfl

theorem join_cons_cons (separator first second : Text) (rest : List Text) :
    join separator (first :: second :: rest) =
      first ++ separator ++ join separator (second :: rest) := rfl

theorem join_append_singleton {separator : Text} {pieces : List Text} (last : Text)
    (some : pieces ≠ []) :
    join separator (pieces ++ [last]) = join separator pieces ++ separator ++ last := by
  induction pieces with
  | nil => exact absurd rfl some
  | cons first rest ih =>
    cases rest with
    | nil => rfl
    | cons second rest =>
      have later := ih nofun
      rw [List.cons_append, List.cons_append, join_cons_cons, ← List.cons_append, later,
        join_cons_cons]
      simp only [List.append_assoc]

end Text

namespace Path

/-- A name that leads somewhere, and is one name only. -/
structure IsName (name : Text) : Prop where
  leads : isIdle name = false
  whole : .scalar '/' ∉ name

/-- The names of a path are names. -/
def IsWritten (p : Path) : Prop := ∀ name ∈ p.names, IsName name

/-- The place that a path starts from. -/
def startPlace (home : List Text) (p : Path) : List Text :=
  match p.start with
  | .here => home
  | _ => []

theorem text_child (p : Path) (name : Text) :
    (p.child name).text = startText p.start ++ Text.join "/" (p.names ++ [name]) := by
  unfold text child
  split
  · simp_all
  · rfl

/-- The empty segments in front of the text of a path. -/
def leading : PathRoot → List Text
  | .here => []
  | .root => [[]]
  | .doubleRoot => [[], []]

theorem segments_startText (start : PathRoot) (t : Text) :
    segments (startText start ++ t) = leading start ++ segments t := by
  cases start <;> simp [segments, startText, leading, Text.ofString, Text.splitOn]

theorem getLast?_append_segments (before : List Text) (t : Text) :
    (before ++ segments t).getLast? = (segments t).getLast? := by
  have last := List.getLast?_eq_some_getLast (Text.splitOn_ne_nil (.scalar '/') t)
  rw [List.getLast?_append, segments, last, Option.some_or]

theorem getLast?_segments_append (s t : Text) :
    (segments (s ++ .scalar '/' :: t)).getLast? = (segments t).getLast? := by
  rw [segments, Text.splitOn_append_cons]
  exact getLast?_append_segments _ t

/-- The text of a path ends as its last name does. -/
theorem getLast?_segments_text (p : Path) (name : Text) :
    (segments (p.child name).text).getLast? = (segments name).getLast? := by
  have last : (segments (Text.join "/" (p.names ++ [name]))).getLast? =
      (segments name).getLast? := by
    by_cases none : p.names = []
    · rw [none, List.nil_append, Text.join]
    · rw [Text.join_append_singleton name none, List.append_assoc]
      exact getLast?_segments_append _ name
  rw [text_child, segments_startText, getLast?_append_segments, last]

/-- The last name of a path is the last segment of its text. -/
theorem getLast?_segments_child (p : Path) {name : Text} (whole : .scalar '/' ∉ name) :
    (segments (p.child name).text).getLast? = some name := by
  rw [getLast?_segments_text, segments, Text.splitOn_of_not_mem whole]
  rfl

end Path

namespace FileSystem

/-- The places that are looked at when names are followed. -/
def stations : List Text → (here : List Text) → List (List Text)
  | [], _ => []
  | name :: rest, here =>
    if Path.isIdle name then stations rest here
    else if name = ".." then stations rest here.dropLast
    else (here ++ [name]) :: stations rest (here ++ [name])

/-- Where a written path is followed from. -/
def outset (home : List Text) (path : Text) : List Text :=
  if Path.startOf path = .here then home else []

/-- The places that are looked at when a written path is followed. -/
def onTheWay (home : List Text) (path : Text) : List (List Text) :=
  stations (Path.segments path) (outset home path)

namespace Found

/-- The place that is found. -/
def place : Found → List Text
  | .directory place | .file place _ | .vacant place => place

/-- The place of a file that is found, or the place that is found for one. -/
def filePlace? : Found → Option (List Text)
  | .directory _ => none
  | .file place _ | .vacant place => some place

/-- The content of a file that is found. -/
def content? : Found → Option Bytes
  | .file _ content => some content
  | _ => none

end Found

variable {f g fs : FileSystem} {names : List Text} {here place : List Text} {path : Text}

/-- Following names depends on what is on the way only. -/
theorem follow_congr (same : ∀ p ∈ stations names here, f.entry? p = g.entry? p) :
    f.follow names here = g.follow names here := by
  induction names generalizing here with
  | nil => rfl
  | cons name rest ih =>
    rw [stations] at same
    unfold follow
    split
    · rw [if_pos ‹_›] at same
      exact ih same
    rw [if_neg ‹_›] at same
    split
    · rw [if_pos ‹_›] at same
      exact ih same
    rw [if_neg ‹_›] at same
    obtain ⟨first, later⟩ := List.forall_mem_cons.mp same
    rw [first]
    rcases g.entry? (here ++ [name]) with _ | _ | content
    · cases rest <;> rfl
    · simp only [ih later]
    · cases rest <;> rfl

theorem locate_congr (home : f.home = g.home)
    (same : ∀ p ∈ onTheWay f.home path, f.entry? p = g.entry? p) :
    f.locate path = g.locate path := by
  have follows := follow_congr same
  unfold locate
  rw [← home]
  split
  · rfl
  split
  · rfl
  · exact follows

/-- A place for files that is found is a last name away from somewhere, and holds what is found. -/
theorem follow_place {found : Found} (follows : fs.follow names here = .ok found)
    (isPlace : found.filePlace? = some place) :
    (∃ before name, place = before ++ [name] ∧ names.getLast? = some name) ∧
      fs.entry? place = found.content?.map .file := by
  induction names generalizing here with
  | nil =>
    cases follows
    cases isPlace
  | cons name rest ih =>
    have onward {here : List Text} (follows : fs.follow rest here = .ok found) :
        (∃ before last, place = before ++ [last] ∧ (name :: rest).getLast? = some last) ∧
          fs.entry? place = found.content?.map .file := by
      obtain ⟨⟨before, last, shape, isLast⟩, holds⟩ := ih follows
      exact ⟨⟨before, last, shape, by rw [List.getLast?_cons, isLast]; rfl⟩, holds⟩
    unfold follow at follows
    split at follows
    · exact onward follows
    split at follows
    · exact onward follows
    split at follows
    · cases follows
    split at follows
    · exact onward follows
    · rename_i content holds
      cases follows
      cases isPlace
      exact ⟨⟨here, name, rfl, rfl⟩, holds⟩
    · cases follows
    · rename_i holds
      cases follows
      cases isPlace
      exact ⟨⟨here, name, rfl, rfl⟩, holds⟩
    · cases follows

/-- A place for files that is found is found again as long as directories stay. -/
theorem follow_kept {found : Found} {content : Bytes}
    (directories : ∀ p, f.entry? p = some .directory → g.entry? p = some .directory)
    (follows : f.follow names here = .ok found) (isPlace : found.filePlace? = some place)
    (holds : g.entry? place = some (.file content)) :
    g.follow names here = .ok (.file place content) := by
  induction names generalizing here with
  | nil =>
    cases follows
    cases isPlace
  | cons name rest ih =>
    unfold follow at follows ⊢
    split
    · rw [if_pos ‹_›] at follows
      exact ih follows
    rw [if_neg ‹_›] at follows
    split
    · rw [if_pos ‹_›] at follows
      exact ih follows
    rw [if_neg ‹_›] at follows
    split
    · rw [if_pos ‹_›] at follows
      cases follows
    rw [if_neg ‹_›] at follows
    split at follows
    · rename_i there
      rw [directories _ there]
      exact ih follows
    · cases follows
      cases isPlace
      rw [holds]
    · cases follows
    · cases follows
      cases isPlace
      rw [holds]
    · cases follows

/-- A written path leads to a file, or to where one can be. -/
def Reaches (fs : FileSystem) (path : Text) (place : List Text) : Prop :=
  ∃ found, fs.locate path = .ok found ∧ found.filePlace? = some place

theorem follow_of_locate {found : Found} (located : fs.locate path = .ok found) :
    fs.follow (Path.segments path) (outset fs.home path) = .ok found := by
  unfold locate at located
  split at located
  · cases located
  split at located
  · cases located
  · exact located

/-- What a path reaches is no directory. -/
theorem Reaches.entry_ne (reaches : fs.Reaches path place) :
    fs.entry? place ≠ some .directory := by
  obtain ⟨found, located, isPlace⟩ := reaches
  rw [(follow_place (follow_of_locate located) isPlace).2]
  cases found.content? <;> nofun

theorem Reaches.last (reaches : fs.Reaches path place) :
    ∃ before name, place = before ++ [name] ∧ (Path.segments path).getLast? = some name := by
  obtain ⟨found, located, isPlace⟩ := reaches
  exact (follow_place (follow_of_locate located) isPlace).1

/-- What a path reaches is reached again as long as directories stay. -/
theorem Reaches.locate (reaches : f.Reaches path place) (home : f.home = g.home)
    (directories : ∀ p, f.entry? p = some .directory → g.entry? p = some .directory)
    {content : Bytes} (holds : g.entry? place = some (.file content)) :
    g.locate path = .ok (.file place content) := by
  obtain ⟨found, located, isPlace⟩ := reaches
  have follows := follow_kept directories (follow_of_locate located) isPlace holds
  rw [home] at follows
  unfold FileSystem.locate at located ⊢
  split at located
  · cases located
  rw [if_neg ‹_›]
  split at located
  · cases located
  rw [if_neg ‹_›]
  exact follows

end FileSystem

namespace Path

/-- A name that is no step back. -/
structure IsPlain (name : Text) : Prop extends IsName name where
  onward : name ≠ ".."

end Path

namespace FileSystem

end FileSystem

end TypeGloss
