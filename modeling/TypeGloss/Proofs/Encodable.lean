import Mathlib.Data.List.TakeDrop
import Mathlib.Data.List.TakeWhile
import TypeGloss.Batch.Process
import TypeGloss.Proofs.Located

/-!
# Texts that have an encoding

A text has an encoding exactly if it holds no surrogates, and file operations take a path exactly if
they take each of its code points. So the paths of outputs are taken if those of the input and of
the directory are. Rendered values hold ASCII characters only.
-/

namespace TypeGloss

namespace Text

/-- Whether a text holds no surrogates. -/
def isEncodable (t : Text) : Bool := t.all (!·.isSurrogate)

@[simp]
theorem isEncodable_append (s t : Text) :
    isEncodable (s ++ t) = (isEncodable s && isEncodable t) := List.all_append

@[simp]
theorem isEncodable_map_scalar (characters : List Char) :
    isEncodable (characters.map .scalar) = true := by
  simp [isEncodable, CodePoint.isSurrogate]

@[simp]
theorem isEncodable_ofString (s : String) : isEncodable (ofString s) = true :=
  isEncodable_map_scalar _

@[simp]
theorem isEncodable_decimal (n : Nat) : isEncodable (decimal n) = true := isEncodable_map_scalar _

@[simp]
theorem isEncodable_hexadecimal (width n : Nat) : isEncodable (hexadecimal width n) = true :=
  isEncodable_map_scalar _

@[simp]
theorem isEncodable_decimalInt (n : Int) : isEncodable (decimalInt n) = true := by
  cases n with
  | ofNat n => exact isEncodable_decimal n
  | negSucc n => exact isEncodable_decimal (n + 1)

theorem isEncodable_repeated {t : Text} (encodable : isEncodable t = true) (n : Nat) :
    isEncodable (repeated n t) = true := by
  simp only [isEncodable, List.all_eq_true, repeated, List.mem_flatten] at encodable ⊢
  rintro c ⟨piece, mem, inside⟩
  exact encodable c (List.eq_of_mem_replicate mem ▸ inside)

/-- A code point of joined pieces is one of a piece or of the separator. -/
theorem mem_join {separator : Text} {pieces : List Text} {c : CodePoint}
    (mem : c ∈ join separator pieces) : c ∈ separator ∨ ∃ piece ∈ pieces, c ∈ piece := by
  induction pieces with
  | nil => cases mem
  | cons first rest ih =>
    cases rest with
    | nil => exact .inr ⟨first, List.mem_cons_self, mem⟩
    | cons second rest =>
      rw [join_cons_cons, List.mem_append, List.mem_append] at mem
      rcases mem with (inFirst | inSeparator) | inRest
      · exact .inr ⟨first, List.mem_cons_self, inFirst⟩
      · exact .inl inSeparator
      · exact (ih inRest).imp_right fun ⟨piece, inside, mem⟩ =>
          ⟨piece, List.mem_cons_of_mem first inside, mem⟩

theorem mem_join_of_mem {separator piece : Text} {pieces : List Text} {c : CodePoint}
    (inside : piece ∈ pieces) (mem : c ∈ piece) : c ∈ join separator pieces := by
  induction pieces with
  | nil => cases inside
  | cons first rest ih =>
    cases rest with
    | nil =>
      obtain rfl := List.mem_singleton.mp inside
      exact mem
    | cons second rest =>
      rw [join_cons_cons, List.mem_append, List.mem_append]
      rcases List.mem_cons.mp inside with rfl | inRest
      · exact .inl (.inl mem)
      · exact .inr (ih inRest)

theorem isEncodable_join {separator : Text} {pieces : List Text}
    (here : isEncodable separator = true) (each : ∀ piece ∈ pieces, isEncodable piece = true) :
    isEncodable (join separator pieces) = true := by
  refine List.all_eq_true.mpr fun c mem => ?_
  rcases mem_join mem with inSeparator | ⟨piece, inside, mem⟩
  · exact List.all_eq_true.mp here c inSeparator
  · exact List.all_eq_true.mp (each piece inside) c mem

end Text

namespace Utf8

theorem surrogatesBut?_eq_none {spared : CodePoint → Bool} {t : Text} :
    surrogatesBut? spared t = none ↔ ∀ c ∈ t, (!c.isSurrogate || spared c) = true := by
  have dropped (p : CodePoint → Bool) : t.drop (t.takeWhile p).length = t.dropWhile p := by
    calc t.drop (t.takeWhile p).length
      _ = (t.takeWhile p ++ t.dropWhile p).drop (t.takeWhile p).length := by
        rw [List.takeWhile_append_dropWhile]
      _ = t.dropWhile p := List.drop_left
  rw [← List.dropWhile_eq_nil_iff, surrogatesBut?, dropped]
  cases t.dropWhile (fun c => !c.isSurrogate || spared c) <;> simp

/-- A text without surrogates has an encoding. -/
theorem encode_of_isEncodable {t : Text} (encodable : t.isEncodable = true) :
    ∃ content, encode t = .ok content := by
  have none : surrogates? t = none := by
    refine surrogatesBut?_eq_none.mpr fun c mem => ?_
    rw [List.all_eq_true.mp encodable c mem, Bool.true_or]
  exact ⟨_, by rw [encode, none]⟩

end Utf8

namespace JsonValue

theorem isEncodable_escaped (c : CodePoint) : (escaped c).isEncodable = true := by
  have ascii (c : CodePoint) (small : c.toNat < 0x7F) : Text.isEncodable [c] = true := by
    cases c with
    | scalar => rfl
    | surrogate offset => simp only [CodePoint.toNat] at small; omega
  unfold escaped
  split
  all_goals try exact Text.isEncodable_ofString _
  dsimp only
  split
  · rename_i printable
    exact ascii c printable.2
  · split <;> simp [unitEscape]

@[simp]
theorem isEncodable_quoted (t : Text) : (quoted t).isEncodable = true := by
  have inside : Text.isEncodable (t.flatMap escaped) = true := by
    refine List.all_eq_true.mpr fun c mem => ?_
    obtain ⟨raw, -, mem⟩ := List.mem_flatMap.mp mem
    exact List.all_eq_true.mp (isEncodable_escaped raw) c mem
  simp [quoted, inside]

theorem isEncodable_newLine (depth : Nat) : (newLine depth).isEncodable = true := by
  simp [newLine, Text.isEncodable_repeated]

theorem isEncodable_enclose (style : Style) (depth : Nat) {opening closing : Text}
    {items : List Text} (front : opening.isEncodable = true) (back : closing.isEncodable = true)
    (each : ∀ item ∈ items, item.isEncodable = true) :
    (enclose style depth opening closing items).isEncodable = true := by
  unfold enclose
  split
  · simp [front, back]
  · simp [front, back, Text.isEncodable_join (Text.isEncodable_ofString ", ") each]
  · have between : Text.isEncodable ("," ++ newLine (depth + 1)) = true := by
      simp [isEncodable_newLine]
    have joined := Text.isEncodable_join between each
    simp [front, back, joined, isEncodable_newLine]

mutual

theorem isEncodable_renderAt (style : Style) (depth : Nat) (value : JsonValue) :
    (renderAt style depth value).isEncodable = true := by
  cases value with
  | null => rfl
  | int n => exact Text.isEncodable_decimalInt n
  | text t => exact isEncodable_quoted t
  | list items =>
    rw [renderAt]
    exact isEncodable_enclose style depth rfl rfl (isEncodable_renderItems style (depth + 1) items)
  | object members =>
    rw [renderAt]
    exact isEncodable_enclose style depth rfl rfl
      (isEncodable_renderMembers style (depth + 1) members)

theorem isEncodable_renderItems (style : Style) (depth : Nat) (items : List JsonValue) :
    ∀ item ∈ renderItems style depth items, item.isEncodable = true := by
  cases items with
  | nil => nofun
  | cons item rest =>
    exact List.forall_mem_cons.mpr
      ⟨isEncodable_renderAt style depth item, isEncodable_renderItems style depth rest⟩

theorem isEncodable_renderMembers (style : Style) (depth : Nat)
    (members : List (Text × JsonValue)) :
    ∀ item ∈ renderMembers style depth members, item.isEncodable = true := by
  cases members with
  | nil => nofun
  | cons member rest =>
    refine List.forall_mem_cons.mpr ⟨?_, isEncodable_renderMembers style depth rest⟩
    simp [isEncodable_renderAt style depth member.2]

end

/-- Every rendered value has an encoding. -/
theorem isEncodable_render (style : Style) (value : JsonValue) :
    (render style value).isEncodable = true := isEncodable_renderAt style 0 value

end JsonValue

namespace PathFault

/-- Whether a code point may stand in a path that file operations take. -/
def isTaken (c : CodePoint) : Bool :=
  (!c.isSurrogate || standsForByte c) && c ≠ .scalar '\x00'

theorem of?_eq_none {path : Text} : of? path = none ↔ ∀ c ∈ path, isTaken c = true := by
  have zero : path.contains (.scalar '\x00') = false ↔ ∀ c ∈ path, c ≠ .scalar '\x00' := by
    simp [List.contains_eq_mem, List.forall_mem_ne']
  have both : of? path = none ↔ Utf8.surrogatesBut? standsForByte path = none ∧
      path.contains (.scalar '\x00') = false := by
    unfold of?
    cases Utf8.surrogatesBut? standsForByte path <;> simp
  rw [both, Utf8.surrogatesBut?_eq_none, zero]
  simp only [isTaken, Bool.and_eq_true, decide_eq_true_eq, forall_and]

end PathFault

namespace Path

open PathFault (isTaken)

/-- A code point of a path is one of its names, or a dot or a slash. -/
theorem mem_text {path : Path} {c : CodePoint} (mem : c ∈ path.text) :
    c ∈ ("./" : Text) ∨ ∃ name ∈ path.names, c ∈ name := by
  have starts (start : PathRoot) : c ∈ startText start → c ∈ ("./" : Text) := by
    cases start <;> simp +contextual [startText, Text.ofString]
  unfold text at mem
  split at mem
  · exact .inl (List.mem_of_mem_take (i := 1) mem)
  · rcases List.mem_append.mp mem with inStart | inNames
    · exact .inl (starts _ inStart)
    · exact (Text.mem_join inNames).imp_left (List.mem_of_mem_drop (i := 1) ·)

theorem mem_text_of_mem {path : Path} {name : Text} {c : CodePoint} (inside : name ∈ path.names)
    (mem : c ∈ name) : c ∈ path.text := by
  unfold text
  split
  · rename_i empty
    rw [empty] at inside
    cases inside
  · exact List.mem_append_right _ (Text.mem_join_of_mem inside mem)

theorem mem_of_mem_withoutEnding {name : Text} {c : CodePoint} (mem : c ∈ withoutEnding name) :
    c ∈ name := by
  unfold withoutEnding at mem
  split at mem
  · rename_i dot first before shape
    rw [List.span_eq_takeWhile_dropWhile] at shape
    have kept : name.reverse.dropWhile (· ≠ .scalar '.') = dot :: first :: before :=
      congrArg Prod.snd shape
    have inside : c ∈ dot :: first :: before := List.mem_cons_of_mem dot (List.mem_reverse.mp mem)
    rw [← kept] at inside
    exact List.mem_reverse.mp ((List.dropWhile_sublist _).subset inside)
  · exact mem

theorem mem_text_of_mem_stem {path : Path} {c : CodePoint} (mem : c ∈ path.stem) :
    c ∈ path.text := by
  have inName := mem_of_mem_withoutEnding mem
  unfold name at inName
  cases last : path.names.getLast? with
  | none => simp [last] at inName
  | some name =>
    rw [last] at inName
    exact mem_text_of_mem (List.mem_of_getLast? last) inName

/-- File operations take a path with one more name if they take the path and the name. -/
theorem of?_child {path : Path} {name : Text} (taken : PathFault.of? path.text = none)
    (here : ∀ c ∈ name, isTaken c = true) : PathFault.of? (path.child name).text = none := by
  rw [PathFault.of?_eq_none] at taken ⊢
  intro c mem
  rcases mem_text mem with mark | ⟨other, inside, inOther⟩
  · exact (by decide : ∀ c ∈ ("./" : Text), isTaken c = true) c mark
  · rcases List.mem_append.mp inside with before | last
    · exact taken c (mem_text_of_mem before inOther)
    · obtain rfl := List.mem_singleton.mp last
      exact here c inOther

/-- File operations take the paths of outputs if they take those of the directory and the input. -/
theorem of?_child_stem {source directory : Path} (input : PathFault.of? source.text = none)
    (taken : PathFault.of? directory.text = none) {ending : Text}
    (plain : ∀ c ∈ ending, isTaken c = true) :
    PathFault.of? (directory.child (source.stem ++ ending)).text = none := by
  refine of?_child taken fun c mem => ?_
  rcases List.mem_append.mp mem with inStem | inEnding
  · exact PathFault.of?_eq_none.mp input c (mem_text_of_mem_stem inStem)
  · exact plain c inEnding

end Path

end TypeGloss
