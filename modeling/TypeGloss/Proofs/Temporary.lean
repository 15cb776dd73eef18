import Mathlib.Data.List.Nodup
import Mathlib.Data.Nat.Find
import TypeGloss.Files.FileSystem
import TypeGloss.Proofs.InterfaceName

/-!
# Names of temporary files

The name of a temporary file tells the name of its target and the number of the try. A directory has
no more names than the file system has entries, so the search for a name that is free ends at the
first one, whatever else there is.
-/

namespace TypeGloss

namespace Text

theorem hexDigit?_digitChar {digit : Nat} (small : digit < 16) :
    hexDigit? (.scalar digit.digitChar) = some digit := by
  have each : ∀ d : Fin 16, hexDigit? (.scalar d.val.digitChar) = some d.val := by decide
  exact each ⟨digit, small⟩

theorem ofDigits_append (base : Nat) (digits : List Nat) (last : Nat) :
    ofDigits base (digits ++ [last]) = ofDigits base digits * base + last := by
  simp [ofDigits]

theorem ofDigits_zeros (base count : Nat) (digits : List Nat) :
    ofDigits base (List.replicate count 0 ++ digits) = ofDigits base digits := by
  induction count with
  | zero => rfl
  | succ count ih => simpa [ofDigits, List.replicate_succ] using ih

/-- A text of hexadecimal digits that spell a number. -/
def Spells (t : Text) (n : Nat) : Prop :=
  ∃ digits : List Nat, t = digits.map (fun digit => .scalar digit.digitChar) ∧
    (∀ digit ∈ digits, digit < 16) ∧ ofDigits 16 digits = n

theorem spells_toDigits (n : Nat) : Spells ((Nat.toDigits 16 n).map .scalar) n := by
  induction n using Nat.strongRecOn with
  | ind n ih =>
    rw [Nat.toDigits_eq_if (by decide)]
    split
    · rename_i small
      exact ⟨[n], rfl, by simpa using small, by simp [ofDigits]⟩
    · obtain ⟨digits, shape, small, value⟩ := ih (n / 16) (by omega)
      refine ⟨digits ++ [n % 16], by simp [shape], ?_, ?_⟩
      · simpa [or_imp, forall_and] using ⟨small, Nat.mod_lt n (by decide)⟩
      · rw [ofDigits_append, value]
        omega

theorem spells_hexadecimal (width n : Nat) : Spells (hexadecimal width n) n := by
  obtain ⟨digits, shape, small, value⟩ := spells_toDigits n
  let zeros := List.replicate (width - (Nat.toDigits 16 n).length) 0
  refine ⟨zeros ++ digits, ?_, fun digit mem => ?_, ?_⟩
  · simp only [hexadecimal, List.map_append, List.map_replicate, shape, zeros]
    rfl
  · rcases List.mem_append.mp mem with zero | mem
    · rw [List.eq_of_mem_replicate zero]
      decide
    · exact small digit mem
  · rw [ofDigits_zeros, value]

/-- The number that the hexadecimal digits of a text spell. -/
def hexValue (t : Text) : Nat := ofDigits 16 (t.filterMap hexDigit?)

theorem Spells.hexValue {t : Text} {n : Nat} (spells : Spells t n) : t.hexValue = n := by
  obtain ⟨digits, rfl, small, rfl⟩ := spells
  have read : (digits.map fun digit => CodePoint.scalar digit.digitChar).filterMap hexDigit? =
      digits := by
    rw [List.filterMap_map, List.filterMap_congr (g := some), List.filterMap_some]
    exact fun digit mem => hexDigit?_digitChar (small digit mem)
  rw [Text.hexValue, read]

theorem Spells.hexDigit {t : Text} {n : Nat} (spells : Spells t n) {c : CodePoint} (mem : c ∈ t) :
    (hexDigit? c).isSome = true := by
  obtain ⟨digits, rfl, small, -⟩ := spells
  obtain ⟨digit, inside, rfl⟩ := List.mem_map.mp mem
  rw [hexDigit?_digitChar (small digit inside)]
  rfl

end Text

namespace FileSystem

/-- The part of the name of a temporary file that tells the try. -/
def mark (turn : Nat) : Text := if turn = 0 then "XXXXXXXX" else Text.hexadecimal 8 turn

theorem temporaryName_eq (target : Text) (turn : Nat) :
    temporaryName target turn = "." ++ target ++ "." ++ mark turn ++ ".tmp" := rfl

theorem hexValue_mark (turn : Nat) : (mark turn).hexValue = turn := by
  unfold mark
  split
  · rename_i zero
    rw [zero]
    rfl
  · exact (Text.spells_hexadecimal 8 turn).hexValue

/-- A mark holds neither dots nor slashes. -/
theorem not_mem_mark {c : CodePoint} (noDigit : Text.hexDigit? c = none) (other : c ≠ .scalar 'X')
    (turn : Nat) : c ∉ mark turn := by
  unfold mark
  split
  · intro mem
    have all : ∀ c ∈ ("XXXXXXXX" : Text), c = .scalar 'X' := by decide
    exact other (all c mem)
  · intro mem
    have digit := (Text.spells_hexadecimal 8 turn).hexDigit mem
    rw [noDigit] at digit
    cases digit

/-- The last occurrence of a code point cuts a text in one way. -/
theorem append_cons_inj {c : CodePoint} {s t u v : Text} (first : c ∉ u) (second : c ∉ v)
    (same : s ++ c :: u = t ++ c :: v) : s = t ∧ u = v := by
  rcases List.append_eq_append_iff.mp same with ⟨between, rfl, rest⟩ | ⟨between, rfl, rest⟩
  · cases between with
    | nil => exact ⟨(List.append_nil s).symm, (List.cons.inj rest).2⟩
    | cons d between =>
      refine absurd ?_ first
      rw [(List.cons.inj rest).2]
      exact List.mem_append_right _ List.mem_cons_self
  · cases between with
    | nil => exact ⟨List.append_nil t, (List.cons.inj rest).2.symm⟩
    | cons d between =>
      refine absurd ?_ second
      rw [(List.cons.inj rest).2]
      exact List.mem_append_right _ List.mem_cons_self

/-- The name of a temporary file tells its target and its try. -/
theorem temporaryName_inj {target other : Text} {turn otherTurn : Nat}
    (same : temporaryName target turn = temporaryName other otherTurn) :
    target = other ∧ turn = otherTurn := by
  have dot (turn : Nat) : .scalar '.' ∉ mark turn := not_mem_mark rfl (by decide) turn
  have inner : target ++ .scalar '.' :: mark turn = other ++ .scalar '.' :: mark otherTurn := by
    rw [temporaryName_eq, temporaryName_eq] at same
    have front := List.append_cancel_right same
    simp only [List.append_assoc] at front
    exact List.append_cancel_left front
  obtain ⟨sameTarget, sameMark⟩ := append_cons_inj (dot turn) (dot otherTurn) inner
  refine ⟨sameTarget, ?_⟩
  rw [← hexValue_mark turn, sameMark, hexValue_mark]

variable {fs f g : FileSystem} {directory : List Text} {target : Text}

/-- The first try whose name is free in a directory. -/
structure IsFirstFree (fs : FileSystem) (directory : List Text) (target : Text) (turn : Nat) :
    Prop where
  free : fs.entry? (directory ++ [temporaryName target turn]) = none
  first : ∀ earlier < turn, fs.entry? (directory ++ [temporaryName target earlier]) ≠ none

theorem IsFirstFree.unique {turn other : Nat} (first : IsFirstFree fs directory target turn)
    (second : IsFirstFree fs directory target other) : turn = other := by
  rcases Nat.lt_trichotomy turn other with less | same | more
  · exact absurd first.free (second.first turn less)
  · exact same
  · exact absurd second.free (first.first other more)

/-- A search with enough tries ends at the first name that is free. -/
theorem freeName_of_isFirstFree {turn : Nat} (isFirst : IsFirstFree fs directory target turn)
    {tries start : Nat} (passed : start ≤ turn) (enough : turn ≤ start + tries) :
    freeName fs directory target tries start = temporaryName target turn := by
  induction tries generalizing start with
  | zero =>
    obtain rfl : start = turn := by omega
    rfl
  | succ tries ih =>
    rw [freeName]
    rcases Nat.eq_or_lt_of_le passed with rfl | before
    · simp [isFirst.free]
    · have taken := isFirst.first start before
      rw [if_pos (by simpa [Option.isSome_iff_ne_none] using taken)]
      exact ih before (by omega)

/-- Some name is free within as many tries as there are entries. -/
theorem exists_free (fs : FileSystem) (directory : List Text) (target : Text) :
    ∃ turn ≤ fs.entries.length, fs.entry? (directory ++ [temporaryName target turn]) = none := by
  by_contra none
  simp only [not_exists, not_and] at none
  have injective : Function.Injective fun turn => directory ++ [temporaryName target turn] := by
    intro i j same
    exact (temporaryName_inj (List.append_singleton_inj.mp same).2).2
  have candidates := List.Nodup.map injective (List.nodup_range (n := fs.entries.length + 1))
  have covered : (List.range (fs.entries.length + 1)).map
      (fun turn => directory ++ [temporaryName target turn]) ⊆ fs.entries.keys := by
    intro place mem
    obtain ⟨turn, within, rfl⟩ := List.mem_map.mp mem
    have taken := none turn (Nat.lt_succ_iff.mp (List.mem_range.mp within))
    obtain ⟨entry, found⟩ := Option.ne_none_iff_exists'.mp taken
    unfold entry? at found
    exact Table.mem_keys_of_get? (by simpa using found)
  have length := candidates.length_le_of_subset covered
  simp only [List.length_map, List.length_range, Table.keys] at length
  omega

/-- A temporary file gets the first name that is free. -/
theorem exists_isFirstFree (fs : FileSystem) (directory : List Text) (target : Text) :
    ∃ turn, IsFirstFree fs directory target turn ∧
      freeName fs directory target fs.entries.length 0 = temporaryName target turn := by
  obtain ⟨turn, within, free⟩ := exists_free fs directory target
  have hasFree : ∃ turn, fs.entry? (directory ++ [temporaryName target turn]) = none := ⟨turn, free⟩
  have isFirst : IsFirstFree fs directory target (Nat.find hasFree) :=
    ⟨Nat.find_spec hasFree, fun earlier before => Nat.find_min hasFree before⟩
  have least : Nat.find hasFree ≤ turn := Nat.find_min' hasFree free
  exact ⟨_, isFirst, freeName_of_isFirstFree isFirst (Nat.zero_le _) (by omega)⟩

end FileSystem

end TypeGloss
