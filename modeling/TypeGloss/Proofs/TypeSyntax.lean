import TypeGloss.Gloss.TypeSyntax
import TypeGloss.Proofs.Concrete
import TypeGloss.Proofs.Rendered
import TypeGloss.Proofs.TypeTree

/-!
# The type syntax of inferred shapes

Every inferred shape has type syntax: words, references to `Array` with one argument, and type
literals, with unions only as arguments. A variable may have an interface of the table instead.
-/

namespace TypeGloss

open Grammar (TypeForm TypeTree TypeSlot typeWords)

/-- Type syntax that is created for shapes, where certain interfaces are known. -/
inductive Created (known : List Text) : TypeForm → Node → Prop
  | word {word : Text} (mem : word ∈ typeWords) :
      Created known .single (.keywordType .synthetic word)
  | named {name : Text} (mem : name ∈ known) :
      Created known .single (.typeReference .synthetic name [])
  | array {type : Node} (inner : Created known .type type) :
      Created known .single (.typeReference .synthetic "Array" [type])
  | literal {members : List Node} (each : ∀ m ∈ members, Created known .signature m) :
      Created known .single (.typeLiteral .synthetic members)
  | single {type : Node} (inner : Created known .single type) : Created known .type type
  | union {members : List Node} (several : 2 ≤ members.length)
      (each : ∀ m ∈ members, Created known .single m) :
      Created known .type (.unionType .synthetic members)
  | signature {key : Text} {type : Node} (inner : Created known .single type) :
      Created known .signature (.propertySignature .synthetic (.name key) type false)

namespace Shape

variable {known : List Text}

theorem created_union {members : List Node} (some : members ≠ [])
    (each : ∀ m ∈ members, Created known .single m) :
    Created known .type (unionSyntax members) := by
  match members with
  | [member] => exact .single (each member List.mem_cons_self)
  | first :: second :: rest => exact .union (by simp) each

private theorem toSyntaxAll_created {shapes : List Shape}
    (each : ∀ shape ∈ shapes,
      ∃ type, shape.toSyntax known = .ok type ∧ Created known .single type) :
    ∃ types, toSyntaxAll known shapes = .ok types ∧ ∀ type ∈ types, Created known .single type := by
  induction shapes with
  | nil => exact ⟨[], rfl, by simp⟩
  | cons shape rest ih =>
    obtain ⟨⟨type, written, created⟩, others⟩ := List.forall_mem_cons.mp each
    obtain ⟨types, writtenRest, createdRest⟩ := ih others
    refine ⟨type :: types, ?_, List.forall_mem_cons.mpr ⟨created, createdRest⟩⟩
    simp only [toSyntaxAll, written, writtenRest]
    rfl

private theorem memberSyntax_created {fields : List (Text × Shape)}
    (each : ∀ field ∈ fields,
      ∃ type, field.2.toSyntax known = .ok type ∧ Created known .single type) :
    ∃ members, memberSyntax known fields = .ok members ∧
      ∀ member ∈ members, Created known .signature member := by
  induction fields with
  | nil => exact ⟨[], rfl, by simp⟩
  | cons field rest ih =>
    obtain ⟨key, shape⟩ := field
    obtain ⟨⟨type, written, created⟩, others⟩ := List.forall_mem_cons.mp each
    obtain ⟨members, writtenRest, createdRest⟩ := ih others
    refine ⟨.propertySignature .synthetic (.name key) type false :: members, ?_,
      List.forall_mem_cons.mpr ⟨.signature created, createdRest⟩⟩
    simp only [memberSyntax, written, writtenRest]
    rfl

/-- A concrete shape has type syntax. -/
theorem Concrete.created {shape : Shape} (concrete : shape.Concrete) :
    ∃ type, shape.toSyntax known = .ok type ∧ Created known .single type := by
  induction concrete with
  | any => exact ⟨_, rfl, .word (by decide)⟩
  | primitive kind => exact ⟨_, rfl, .word (by cases kind <;> decide)⟩
  | object each ih =>
    obtain ⟨members, written, created⟩ := memberSyntax_created ih
    refine ⟨.typeLiteral .synthetic members, ?_, .literal created⟩
    simp only [toSyntax, written]
    rfl
  | @array elements some each ih =>
    match elements with
    | [] => exact absurd rfl some
    | first :: rest =>
      obtain ⟨⟨head, written, created⟩, others⟩ := List.forall_mem_cons.mp ih
      obtain ⟨tail, writtenRest, createdRest⟩ := toSyntaxAll_created others
      refine ⟨.typeReference .synthetic "Array" [unionSyntax (head :: tail)], ?_,
        .array (created_union (by simp) (List.forall_mem_cons.mpr ⟨created, createdRest⟩))⟩
      simp only [toSyntax, written, writtenRest]
      rfl

theorem Annotates.created {shape : Shape} (annotates : Annotates known shape) :
    ∃ type, shape.toSyntax known = .ok type ∧ Created known .single type := by
  cases annotates with
  | concrete concrete => exact concrete.created
  | interface mem => exact ⟨_, by simp [toSyntax, mem], .named mem⟩

/-- The interface of a concrete object shape can be declared. -/
theorem Concrete.interfaceSyntax {shape : Shape} (concrete : shape.Concrete)
    (isObject : shape.isObject = true) (known : List Text) (name : Text) :
    ∃ members, interfaceSyntax known name (some shape) =
        .ok (.interfaceDeclaration .synthetic (.identifier .synthetic false name .absent) members) ∧
      ∀ member ∈ members, Created known .signature member := by
  cases concrete with
  | object each =>
    obtain ⟨members, written, created⟩ :=
      memberSyntax_created fun field mem => (each field mem).created
    refine ⟨members, ?_, created⟩
    simp only [Shape.interfaceSyntax, written]
    rfl
  | _ => cases isObject

end Shape

/-- Created type syntax is type syntax, whose names are words if those of the interfaces are. -/
theorem Created.typeTree_of_names {W : Text → Prop} {known : List Text} {form : TypeForm}
    {node : Node} (created : Created known form node)
    (words : ∀ t, Lexeme.isWordText t = true → W t)
    (names : ∀ name ∈ known, W name) : TypeTree W (fun _ => True) form.slot node := by
  induction created with
  | @word word mem =>
    have all : ∀ word ∈ typeWords, Lexeme.isWordText word = true := by decide
    exact .word (words word (all word mem))
  | named mem => exact .reference (names _ mem) (by simp)
  | array _ ih => exact .reference (words _ rfl) (List.forall_mem_singleton.mpr ih)
  | literal _ ih => exact .literal ih
  | single _ ih => exact ih
  | union several _ ih => exact .union (by rintro rfl; simp at several) ih
  | signature _ ih => exact .signature trivial ih

/-- Created type syntax is type syntax. -/
theorem Created.typeTree {known : List Text} {form : TypeForm} {node : Node}
    (created : Created known form node) :
    TypeTree (fun _ => True) (fun _ => True) form.slot node :=
  created.typeTree_of_names (fun _ _ => trivial) fun _ _ => trivial

end TypeGloss
