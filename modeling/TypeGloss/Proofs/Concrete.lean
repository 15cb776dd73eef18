import TypeGloss.Proofs.Inference
import TypeGloss.Proofs.InterfaceName

/-!
# The shapes that inference gives

Expressions have shapes without functions and interfaces, whose arrays have elements. Interfaces
only come in when variables are annotated.
-/

namespace TypeGloss

/-- A shape without functions and interfaces, whose arrays have elements. -/
inductive Shape.Concrete : Shape → Prop
  | any : Concrete .any
  | primitive (kind : Primitive) : Concrete (.primitive kind)
  | object {fields : List (Text × Shape)} (each : ∀ field ∈ fields, Concrete field.2) :
      Concrete (.object fields)
  | array {elements : List Shape} (some : elements ≠ [])
      (each : ∀ element ∈ elements, Concrete element) : Concrete (.array elements)

namespace Shape

mutual

/-- A shape and all shapes inside it. -/
def parts : Shape → List Shape
  | .object fields => .object fields :: partsOfFields fields
  | .array elements => .array elements :: partsOfAll elements
  | .function params result => .function params result :: (partsOfFields params ++ parts result)
  | .any => [.any]
  | .primitive kind => [.primitive kind]
  | .interface name => [.interface name]

/-- The parts of named shapes. -/
def partsOfFields : List (Text × Shape) → List Shape
  | [] => []
  | (_, shape) :: rest => parts shape ++ partsOfFields rest

/-- The parts of shapes. -/
def partsOfAll : List Shape → List Shape
  | [] => []
  | shape :: rest => parts shape ++ partsOfAll rest

end

/-- A property that shapes without parts have, that of no value apart, and that objects and arrays
take over from what they are made of. -/
structure Inherited (holds : Shape → Prop) : Prop where
  any : holds .any
  primitive : ∀ kind : Primitive, kind ≠ .void → holds (.primitive kind)
  object : ∀ fields : List (Text × Shape), (∀ field ∈ fields, holds field.2) →
    holds (objectOf fields)
  array : ∀ elements : List Shape, (∀ element ∈ elements, holds element) →
    holds (arrayOf elements)

theorem mem_of_mem_distinct {elements : List Shape} {shape : Shape}
    (mem : shape ∈ distinct elements) : shape ∈ elements := by
  induction elements with
  | nil => exact mem
  | cons first rest ih =>
    rcases List.mem_cons.mp mem with rfl | mem
    · exact List.mem_cons_self
    · exact List.mem_cons_of_mem _ (ih (List.mem_of_mem_filter mem))

/-- The elements of an array are among those that it is made of, or nothing is known of them. -/
theorem arrayOf_cases (elements : List Shape) :
    ∃ kept, arrayOf elements = .array kept ∧ kept ≠ [] ∧
      (kept = [.any] ∨ kept = (distinct elements).filter (· ≠ .any)) := by
  unfold arrayOf
  split
  case h_1 => exact ⟨_, rfl, List.cons_ne_nil _ _, .inl rfl⟩
  case h_2 some => exact ⟨_, rfl, some, .inr rfl⟩

theorem inherited_concrete : Inherited Concrete where
  any := .any
  primitive kind _ := .primitive kind
  object fields each := .object fun field mem => each field (Table.mem_of_mem_ofPairs mem)
  array elements each := by
    obtain ⟨kept, shape, some, rfl | rfl⟩ := arrayOf_cases elements
    · rw [shape]
      exact .array some (List.forall_mem_singleton.mpr .any)
    · rw [shape]
      refine .array some fun element mem => each element (mem_of_mem_distinct ?_)
      exact List.mem_of_mem_filter mem

/-- A shape that a variable or a function can be annotated with, where certain interfaces are
known. -/
inductive Annotates (known : List Text) : Shape → Prop
  | concrete {shape : Shape} (concrete : shape.Concrete) : Annotates known shape
  | interface {name : Text} (mem : name ∈ known) : Annotates known (.interface name)

end Shape

namespace Inference

/-- A context that gives names concrete shapes. -/
def ConcreteContext (context : Context) : Prop := ∀ entry ∈ context, entry.2.Concrete

section Inherited

variable {holds : Shape → Prop} {context : Context}

theorem get?_inherits (inherited : Shape.Inherited holds)
    (known : ∀ name shape, context.get? name = some shape → holds shape) (name : Text) :
    holds ((context.get? name).getD .any) := by
  cases found : context.get? name with
  | none => exact inherited.any
  | some shape => exact known name shape found

mutual

/-- What shapes inherit, every expression has where the names that are known have it. -/
theorem plain_inherits (inherited : Shape.Inherited holds)
    (known : ∀ name shape, context.get? name = some shape → holds shape) (node : Node) :
    holds (plain context node) := by
  cases node with
  | object loc wrapped properties =>
    rw [plain]
    exact inherited.object _ (plainFields_inherits inherited known properties)
  | array loc wrapped elements =>
    rw [plain]
    exact inherited.array _ (plainAll_inherits inherited known elements)
  | binary loc wrapped operator left right =>
    rw [plain]
    split
    · exact inherited.any
    · split <;> exact inherited.primitive _ (by decide)
  | identifier loc wrapped name typing =>
    rw [plain]
    exact get?_inherits inherited known name
  | number | string | boolean | null =>
    rw [plain]
    exact inherited.primitive _ (by decide)
  | _ =>
    rw [plain]
    · exact inherited.any
    all_goals intros; contradiction

private theorem plainAll_inherits (inherited : Shape.Inherited holds)
    (known : ∀ name shape, context.get? name = some shape → holds shape) :
    ∀ nodes : List Node, ∀ shape ∈ plainAll context nodes, holds shape
  | [] => by simp [plainAll]
  | node :: rest => by
    rw [plainAll, List.forall_mem_cons]
    exact ⟨plain_inherits inherited known node, plainAll_inherits inherited known rest⟩

private theorem plainFields_inherits (inherited : Shape.Inherited holds)
    (known : ∀ name shape, context.get? name = some shape → holds shape) :
    ∀ nodes : List Node, ∀ field ∈ plainFields context nodes, holds field.2
  | [] => by simp [plainFields]
  | node :: rest => by
    have ih := plainFields_inherits inherited known rest
    cases node with
    | property loc key value shorthand =>
      rw [plainFields, List.forall_mem_cons]
      exact ⟨plain_inherits inherited known value, ih⟩
    | _ => exact ih

end

end Inherited

theorem concrete_get? {context : Context} (concrete : ConcreteContext context) (name : Text) :
    ((context.get? name).getD .any).Concrete :=
  get?_inherits Shape.inherited_concrete (fun _ _ found => concrete _ (Table.mem_of_get? found))
    name

/-- In a context of concrete shapes, every expression has a concrete shape. -/
theorem concrete_plain {context : Context} (concrete : ConcreteContext context) (node : Node) :
    (plain context node).Concrete :=
  plain_inherits Shape.inherited_concrete
    (fun _ _ found => concrete _ (Table.mem_of_get? found)) node

end Inference

end TypeGloss
