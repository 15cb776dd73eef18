import TypeGloss.Proofs.Concrete
import TypeGloss.Proofs.Rendered
import TypeGloss.Shape.Render

/-!
# The text of a shape tells the shape

No text of a shape is a proper beginning of another. What is written first tells what kind of shape
follows; the separators of fields and of element shapes start otherwise than what closes the list;
and a key ends at its colon or at the first quote that is not escaped, whatever code points it
holds. Functions and interfaces are left out: an interface may have any name, `any` among them.
-/

namespace TypeGloss

namespace Text

/-- The texts of two things tell them apart, whatever stands behind: neither is a proper beginning
of the other, and they are the same only for the same thing. -/
def Tells {α : Type} (text : α → Text) (x y : α) : Prop :=
  ∀ u v, text x ++ u = text y ++ v → x = y ∧ u = v

section Tells

variable {α : Type} {text : α → Text} {x y : α}

theorem Tells.symm (tells : Tells text x y) : Tells text y x := fun u v same =>
  have ⟨thing, rest⟩ := tells v u same.symm
  ⟨thing.symm, rest.symm⟩

/-- Texts that start differently tell things apart. -/
theorem Tells.of_head? {c d : CodePoint} (first : (text x).head? = some c)
    (second : (text y).head? = some d) (differ : c ≠ d) : Tells text x y := by
  intro u v same
  have heads := congrArg List.head? same
  rw [List.head?_append, List.head?_append, first, second] at heads
  exact absurd (Option.some.inj heads) differ

theorem join_cons (separator first : Text) (rest : List Text) :
    join separator (first :: rest) = first ++ rest.flatMap (separator ++ ·) := by
  induction rest generalizing first with
  | nil => exact (List.append_nil first).symm
  | cons second rest ih => rw [join, ih, List.flatMap_cons, List.append_assoc] <;> simp

/-- Things one after the other are told from their text, if none of them starts as what stands at
the end. -/
theorem flatMap_inj {stop u v : Text} (apart : ∀ x u v, text x ++ u ≠ stop ++ v) {xs ys : List α}
    (tells : ∀ x ∈ xs, ∀ y ∈ ys, Tells text x y)
    (same : xs.flatMap text ++ (stop ++ u) = ys.flatMap text ++ (stop ++ v)) :
    xs = ys ∧ u = v := by
  induction xs generalizing ys with
  | nil =>
    cases ys with
    | nil => exact ⟨rfl, List.append_cancel_left same⟩
    | cons y ys =>
      rw [List.flatMap_cons, List.append_assoc] at same
      exact absurd same.symm (apart y _ _)
  | cons x xs ih =>
    rw [List.flatMap_cons, List.append_assoc] at same
    cases ys with
    | nil => exact absurd same (apart x _ _)
    | cons y ys =>
      rw [List.flatMap_cons, List.append_assoc] at same
      obtain ⟨rfl, rest⟩ := tells x List.mem_cons_self y List.mem_cons_self _ _ same
      obtain ⟨rfl, after⟩ := ih (fun x mem y mem' =>
        tells x (List.mem_cons_of_mem _ mem) y (List.mem_cons_of_mem _ mem')) rest
      exact ⟨rfl, after⟩

/-- Things that are joined are told from their text, if the separator does not start as what stands
at the end. -/
theorem join_inj {separator stop u v : Text} (apart : ∀ u v, separator ++ u ≠ stop ++ v)
    {xs ys : List α} (some : xs ≠ []) (some' : ys ≠ [])
    (tells : ∀ x ∈ xs, ∀ y ∈ ys, Tells text x y)
    (same : join separator (xs.map text) ++ (stop ++ u) =
      join separator (ys.map text) ++ (stop ++ v)) : xs = ys ∧ u = v := by
  obtain ⟨x, xs, rfl⟩ := List.exists_cons_of_ne_nil some
  obtain ⟨y, ys, rfl⟩ := List.exists_cons_of_ne_nil some'
  simp only [List.map_cons, join_cons, List.flatMap_map, List.append_assoc] at same
  obtain ⟨rfl, rest⟩ := tells x List.mem_cons_self y List.mem_cons_self _ _ same
  have behind (x y : α) (tells : Tells text x y) : Tells (separator ++ text ·) x y := by
    intro u v same
    rw [List.append_assoc, List.append_assoc] at same
    exact tells u v (List.append_cancel_left same)
  have apart' (x : α) (u v : Text) : (separator ++ text x) ++ u ≠ stop ++ v := by
    rw [List.append_assoc]
    exact apart _ _
  obtain ⟨rfl, after⟩ := flatMap_inj apart' (fun x mem y mem' => behind x y
    (tells x (List.mem_cons_of_mem _ mem) y (List.mem_cons_of_mem _ mem'))) rest
  exact ⟨rfl, after⟩

end Tells

/-- The first occurrence of a code point cuts a text in one way. -/
theorem cut_inj {c : CodePoint} {s t u v : Text} (first : c ∉ s) (second : c ∉ t)
    (same : s ++ c :: u = t ++ c :: v) : s = t ∧ u = v := by
  induction s generalizing t with
  | nil =>
    cases t with
    | nil => exact ⟨rfl, (List.cons.inj same).2⟩
    | cons d t => exact absurd ((List.cons.inj same).1 ▸ List.mem_cons_self) second
  | cons d s ih =>
    cases t with
    | nil => exact absurd ((List.cons.inj same).1 ▸ List.mem_cons_self) first
    | cons e t =>
      obtain ⟨rfl, later⟩ := List.cons.inj same
      obtain ⟨rfl, rest⟩ := ih (first ∘ List.mem_cons_of_mem _) (second ∘ List.mem_cons_of_mem _)
        later
      exact ⟨rfl, rest⟩

end Text

namespace Key

open Lexeme (isWordText isWordStart isWordPart)

/-- A key that stands without quotes holds only parts of words and line feeds. -/
theorem not_mem_of_isPlain {name : Text} (plain : isPlain name = true) {c : CodePoint}
    (noPart : isWordPart c = false) (noFeed : c ≠ .scalar '\n') : c ∉ name := by
  obtain ⟨word, isWord, shape⟩ := word_of_isPlain plain
  have absent : c ∉ word := by
    intro mem
    cases word with
    | nil => cases mem
    | cons d rest =>
      simp only [isWordText, Bool.and_eq_true, List.all_eq_true] at isWord
      rcases List.mem_cons.mp mem with rfl | mem
      · simp [Lexeme.isWordPart_of_isWordStart isWord.1] at noPart
      · simp [isWord.2 c mem] at noPart
  rcases shape with rfl | rfl
  · exact absent
  · simp [absent, noFeed]

theorem tells_escape (c d : CodePoint) : Text.Tells escape c d := by
  intro u v same
  unfold escape at same
  split at same <;> split at same
  · simpa using same
  · rename_i plain
    exact absurd (.inl (List.cons.inj same).1.symm) plain
  · rename_i plain _
    exact absurd (.inl (List.cons.inj same).1) plain
  · simpa using same

theorem escape_ne_quote (c : CodePoint) (u v : Text) : escape c ++ u ≠ "'" ++ v := by
  intro same
  unfold escape at same
  split at same
  · exact absurd (List.cons.inj same).1 (by decide)
  · rename_i plain
    exact plain (.inr (List.cons.inj same).1)

theorem plain_ne_quote {name : Text} (plain : isPlain name = true) (u v : Text) :
    name ++ u ≠ "'" ++ v := by
  cases name with
  | nil => cases plain
  | cons c rest =>
    intro same
    have quote : .scalar '\'' ∉ c :: rest := not_mem_of_isPlain plain (by decide) (by decide)
    exact quote ((List.cons.inj same).1 ▸ List.mem_cons_self)

/-- A key in front of its colon is told from its text, whatever it holds. -/
theorem render_colon_inj {s t u v : Text}
    (same : render s ++ (": " ++ u) = render t ++ (": " ++ v)) : s = t ∧ u = v := by
  have noColon {name : Text} (plain : isPlain name = true) : .scalar ':' ∉ name :=
    not_mem_of_isPlain plain (by decide) (by decide)
  unfold render at same
  split at same <;> split at same
  · rename_i first second
    obtain ⟨rfl, rest⟩ := Text.cut_inj (noColon first) (noColon second) same
    exact ⟨rfl, (List.cons.inj rest).2⟩
  · rename_i first _
    simp only [List.append_assoc] at same
    exact absurd same (plain_ne_quote first _ _)
  · rename_i _ second
    simp only [List.append_assoc] at same
    exact absurd same.symm (plain_ne_quote second _ _)
  · simp only [List.append_assoc] at same
    obtain ⟨rfl, rest⟩ := Text.flatMap_inj escape_ne_quote (fun c _ d _ => tells_escape c d)
      (List.append_cancel_left same)
    exact ⟨rfl, List.append_cancel_left rest⟩

end Key

theorem Primitive.tells_name (kind other : Primitive) : Text.Tells name kind other := by
  intro u v same
  cases kind <;> cases other <;> simp_all [name, Text.ofString]

/-- The names of primitives start otherwise than the texts of other shapes. -/
theorem Primitive.head?_name (kind : Primitive) :
    ∃ c, kind.name.head? = some c ∧ c ≠ .scalar 'a' ∧ c ≠ .scalar '\x7b' ∧ c ≠ .scalar 'A' := by
  cases kind <;> exact ⟨_, rfl, by decide⟩

namespace Shape

/-- The text of a field. -/
def fieldText (field : Text × Shape) : Text := Key.render field.1 ++ (": " ++ field.2.render)

theorem renderFields_eq (fields : List (Text × Shape)) :
    renderFields fields = fields.map fieldText := by
  induction fields with
  | nil => rfl
  | cons field rest ih => rw [renderFields, ih, List.map_cons, fieldText, List.append_assoc]

theorem render_object {fields : List (Text × Shape)} (some : fields ≠ []) :
    render (.object fields) = "\x7b " ++ (Text.join "; " (fields.map fieldText) ++ " \x7d") := by
  rw [render, renderFields_eq, List.append_assoc]
  exact some

/-- The text of an object without fields tells that it has none. -/
theorem render_empty_ne {fields : List (Text × Shape)} (some : fields ≠ []) (u v : Text) :
    render (.object []) ++ u ≠ render (.object fields) ++ v := by
  intro same
  rw [render_object some] at same
  exact absurd (List.cons.inj (List.cons.inj same).2).1 (by decide)

theorem tells_field {field other : Text × Shape} (tells : Text.Tells render field.2 other.2) :
    Text.Tells fieldText field other := by
  intro u v same
  simp only [fieldText, List.append_assoc] at same
  obtain ⟨name, rest⟩ := Key.render_colon_inj same
  obtain ⟨shape, after⟩ := tells u v rest
  exact ⟨Prod.ext name shape, after⟩

theorem head?_object (fields : List (Text × Shape)) :
    (render (.object fields)).head? = some (.scalar '\x7b') := by
  cases fields <;> rfl

theorem head?_array (elements : List Shape) :
    (render (.array elements)).head? = some (.scalar 'A') := by
  rcases elements with _ | ⟨_, _ | _⟩ <;> rfl

theorem renderMembers_eq {elements : List Shape} (each : ∀ element ∈ elements, element.Concrete) :
    renderMembers elements = elements.map render := by
  induction elements with
  | nil => rfl
  | cons element rest ih =>
    obtain ⟨first, later⟩ := List.forall_mem_cons.mp each
    have alone (t : Text) : element.grouped t = t := by cases first <;> rfl
    rw [renderMembers, ih later, List.map_cons, alone]

theorem render_array {elements : List Shape} (each : ∀ element ∈ elements, element.Concrete) :
    render (.array elements) = "Array<" ++ (Text.join " | " (elements.map render) ++ ">") := by
  rw [← List.append_assoc]
  rcases elements with _ | ⟨element, _ | _⟩
  · rfl
  · rfl
  · rw [render, renderMembers_eq each]
    simp

namespace Concrete

theorem tells_any {shape : Shape} (concrete : shape.Concrete) : Text.Tells render .any shape := by
  cases concrete with
  | any => exact fun u v same => ⟨rfl, List.append_cancel_left same⟩
  | primitive kind =>
    obtain ⟨c, first, other, -⟩ := kind.head?_name
    exact .of_head? rfl first other.symm
  | object => exact .of_head? rfl (head?_object _) (by decide)
  | array => exact .of_head? rfl (head?_array _) (by decide)

theorem tells_primitive {shape : Shape} (concrete : shape.Concrete) (kind : Primitive) :
    Text.Tells render (.primitive kind) shape := by
  obtain ⟨c, first, -, noObject, noArray⟩ := kind.head?_name
  cases concrete with
  | any => exact (tells_any (.primitive kind)).symm
  | primitive other =>
    intro u v same
    obtain ⟨rfl, rest⟩ := kind.tells_name other u v same
    exact ⟨rfl, rest⟩
  | object => exact .of_head? first (head?_object _) noObject
  | array => exact .of_head? first (head?_array _) noArray

/-- The texts of shapes without functions and interfaces tell them apart, whatever stands behind. -/
theorem tells {shape other : Shape} (concrete : shape.Concrete) (second : other.Concrete) :
    Text.Tells render shape other := by
  have fieldsEnd (u v : Text) : "; " ++ u ≠ " \x7d" ++ v :=
    fun same => absurd (List.cons.inj same).1 (by decide)
  have elementsEnd (u v : Text) : " | " ++ u ≠ ">" ++ v :=
    fun same => absurd (List.cons.inj same).1 (by decide)
  induction concrete generalizing other with
  | any => exact second.tells_any
  | primitive kind => exact second.tells_primitive kind
  | @object fields each ih =>
    cases second with
    | any => exact (tells_any (.object each)).symm
    | primitive kind => exact (tells_primitive (.object each) kind).symm
    | array => exact .of_head? (head?_object _) (head?_array _) (by decide)
    | @object others eachOther =>
      intro u v same
      by_cases none : fields = [] <;> by_cases noneOther : others = []
      · subst none noneOther
        exact ⟨rfl, List.append_cancel_left same⟩
      · subst none
        exact absurd same (render_empty_ne noneOther u v)
      · subst noneOther
        exact absurd same.symm (render_empty_ne none v u)
      · rw [render_object none, render_object noneOther] at same
        simp only [List.append_assoc] at same
        obtain ⟨rfl, rest⟩ := Text.join_inj fieldsEnd none noneOther
          (fun field mem other mem' => tells_field (ih field mem (eachOther other mem')))
          (List.append_cancel_left same)
        exact ⟨rfl, rest⟩
  | @array elements some each ih =>
    cases second with
    | any => exact (tells_any (.array some each)).symm
    | primitive kind => exact (tells_primitive (.array some each) kind).symm
    | object => exact .of_head? (head?_array _) (head?_object _) (by decide)
    | @array others someOther eachOther =>
      intro u v same
      rw [render_array each, render_array eachOther] at same
      simp only [List.append_assoc] at same
      obtain ⟨rfl, rest⟩ := Text.join_inj elementsEnd some someOther
        (fun element mem other mem' => ih element mem (eachOther other mem'))
        (List.append_cancel_left same)
      exact ⟨rfl, rest⟩

end Concrete

/-- Shapes without functions and interfaces, whose arrays have elements, are the same if their texts
are. -/
theorem render_injective {shape other : Shape} (concrete : shape.Concrete)
    (second : other.Concrete) (same : shape.render = other.render) : shape = other :=
  (concrete.tells second [] [] (congrArg (· ++ []) same)).1

/-- Keys that hold quotes, separators and line feeds do not deceive: a shape that is built from
repeated properties is the one that its text shows. -/
theorem render_injective_keys :
    let key : Text := "it's: any; b"
    let built := objectOf [(key, .any), ("a\n", .null), (key, .array [.any, .null])]
    let shown : Shape := .object [(key, .array [.any, .null]), ("a\n", .null)]
    built.render = "\x7b 'it\\'s: any; b': Array<any | null>; a\n: null \x7d" ∧ built = shown := by
  intro key built shown
  have text : built.render = shown.render := by decide +kernel
  have null : Concrete .null := .primitive .null
  have array : Concrete (.array [.any, .null]) :=
    .array (List.cons_ne_nil _ _) (by simpa using ⟨.any, null⟩)
  have concrete : built.Concrete :=
    inherited_concrete.object _ (by simpa using ⟨.any, null, array⟩)
  have second : shown.Concrete := .object (by simpa using ⟨array, null⟩)
  exact ⟨text, render_injective concrete second text⟩

end Shape

end TypeGloss
