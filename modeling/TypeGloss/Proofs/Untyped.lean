import TypeGloss.Proofs.Rendered
import TypeGloss.Proofs.Resolution

/-!
# Trees without type syntax

A tree that was read and holds no type syntax fits the grammar without types: all slots for types
are empty.
-/

namespace TypeGloss

open Lexeme (isWordText IsName)
open Grammar (Form Fits)

namespace Gloss

/-- The types that the declarations of a tree have. -/
def Types.own : Types where
  declaration := typings
  function
    | .functionDeclaration _ _ params _ result => ⟨params.map fun p => typingOf p.bound, result⟩
    | _ => ⟨[], .absent⟩

theorem withTyping_typingOf (name : Node) : withTyping name (typingOf name) = name := by
  cases name <;> rfl

theorem typeDeclarator_own (d : Node) : typeDeclarator d (typingOf (declaredBy d)) = d := by
  cases d with
  | declarator loc name initializer => simp [typeDeclarator, declaredBy, withTyping_typingOf]
  | _ => rfl

theorem typeParam_own (p : Node) : typeParam p (typingOf p.bound) = p := by
  cases p <;> simp [typeParam, Node.bound, withTyping_typingOf]

/-- A tree keeps its form when it is given the types that it has. -/
theorem refill_own (root : Node) : refill .own root = root := by
  induction root using Node.slots_induction with
  | node node ih =>
    rw [refill_eq, Node.mapSlots_eq_self ih]
    cases node with
    | variableDeclaration loc keyword declared =>
      simp [put, Types.own, typings, List.zipWith_map_right, typeDeclarator_own]
    | functionDeclaration loc name params body result =>
      simp [put, Types.own, List.zipWith_map_right, typeParam_own]
    | _ => rfl

/-- The slots of declarations in a tree have what all its nodes have. -/
theorem typings_of_every {q : Node → Prop} {node : Node} (absent : q .absent)
    (every : node.Every q) : ∀ type ∈ typings node, q type := by
  have named (name : Node) (every : name.Every q) : q (typingOf name) := by
    cases name with
    | identifier => exact (every.each _ List.mem_cons_self).here
    | _ => exact absent
  cases node with
  | variableDeclaration loc keyword declared =>
    refine List.forall_mem_map.mpr fun d mem => named _ ?_
    have inside := every.each d mem
    cases d with
    | declarator => exact inside.each _ List.mem_cons_self
    | _ => exact .mk absent (by rintro _ ⟨⟩)
  | functionDeclaration loc name params body result =>
    refine List.forall_mem_append.mpr ⟨List.forall_mem_map.mpr fun p mem => named _ ?_, ?_⟩
    · have inside := every.each p (by simp [Node.slots, mem])
      cases p with
      | defaultParam => exact inside.each _ List.mem_cons_self
      | _ => exact inside
    · exact List.forall_mem_singleton.mpr (every.each result (by simp [Node.slots])).here
  | _ => rintro _ ⟨⟩

end Gloss

namespace Node

/-- Whether a node is a name that is spelled like a reserved word. -/
def isReserved : Node → Bool
  | .identifier _ _ name _ => (Keyword.ofSpelling? name).isSome
  | _ => false

end Node

namespace Grammar

open Gloss

/-- A declaration with names and without types, and no type syntax itself. -/
structure Bare (node : Node) : Prop where
  untyped : node.isTyped = false
  names : bindsNames node = true
  types : ∀ type ∈ typings node, type = .absent

theorem isTyped_of_typeTree {type : Node} (tree : Parse.IsTypeTree .type type) :
    type.isTyped = true := by
  cases tree <;> rfl

theorem bare_of_fits {R : Prop} {form : Form} {node : Node} (fits : Fits (.source R) form node)
    (untyped : node.Every (·.isTyped = false)) : node.Every Bare := by
  have binds := binds_of_fits fits
  clear fits
  induction untyped with
  | @mk node here each ih =>
    refine .mk ⟨here, binds.here.names, fun type mem => ?_⟩ fun slot mem =>
      ih slot mem (binds.each slot mem)
    rcases binds.here.types type mem with absent | tree
    · exact absent
    · have every : node.Every (·.isTyped = false) := .mk here each
      have noType := typings_of_every (q := (·.isTyped = false)) rfl every type mem
      rw [isTyped_of_typeTree tree] at noType
      cases noType

theorem Bare.of_wrap {node : Node} (bare : Bare node.wrap) : Bare node := by
  obtain ⟨untyped, names, types⟩ := bare
  cases node <;> exact ⟨untyped, names, types⟩

theorem Bare.puts {G : Grammar} (named : ∀ {name type}, G.annotated name type → IsName name)
    {node : Node} (bare : Bare node) :
    Puts .own (fun _ => TypesBinders G) (fun _ => ResultSlot G) node := by
  obtain ⟨-, names, types⟩ := bare
  have binders {type : Node} (absent : type = .absent) : TypesBinders G type := by
    intro loc name old bound
    subst absent
    cases bound with
    | plain isName => exact .plain isName
    | typed annotated => exact .plain (named annotated)
  cases node with
  | variableDeclaration loc keyword declared =>
    have absent := List.forall_mem_map.mp types
    refine List.forall₂_map_right_iff.mpr (List.forall₂_same.mpr fun d mem => ⟨?_, ?_⟩)
    · exact List.all_eq_true.mp names d mem
    · exact binders (absent d mem)
  | functionDeclaration loc name params body result =>
    obtain ⟨paramTypes, resultType⟩ := List.forall_mem_append.mp types
    have absent := List.forall_mem_map.mp paramTypes
    refine ⟨List.forall₂_map_right_iff.mpr (List.forall₂_same.mpr fun p mem => ⟨?_, ?_⟩), ?_⟩
    · exact List.all_eq_true.mp names p mem
    · exact binders (absent p mem)
    · obtain rfl := resultType result List.mem_cons_self
      exact .none
  | _ => trivial

/-- What a tree must be to fit a grammar without the help of types: without type syntax, and without
reserved words as operands unless these are allowed. -/
def Plain (reserved : Prop) (node : Node) : Prop :=
  Bare node ∧ (reserved ∨ ∀ operand ∈ node.operands, operand.isReserved = false)

/-- A tree that must be plain is given types only where it is a declaration. -/
theorem suits_of_puts (R : Prop) (G : Grammar) (types : Types) :
    Suits (.source R) G types fun node => Plain G.reserved node ∧
      Puts types (fun _ => TypesBinders G) (fun _ => ResultSlot G) node where
  wrap node both := by
    obtain ⟨⟨bare, operands⟩, puts⟩ := both
    refine ⟨⟨bare.of_wrap, ?_⟩, ?_⟩
    · cases node <;> exact operands
    · cases node <;> exact puts
  annotated every annotated := by
    have untyped := (every.each _ List.mem_cons_self).here.1.1.untyped
    rw [isTyped_of_typeTree annotated.2] at untyped
    cases untyped
  result every result := by
    have untyped := every.here.1.1.untyped
    rw [isTyped_of_typeTree result] at untyped
    cases untyped
  interface every interface := by
    obtain ⟨-, -⟩ := interface
    cases every.here.1.1.untyped
  reserved _ _ _ _ both mem word := by
    refine both.1.2.imp_right fun operands => ⟨word, ?_⟩
    simpa [Node.isReserved] using operands _ mem
  puts := And.right

/-- A tree without type syntax fits every grammar whose names with types are names. -/
theorem Fits.withoutTypes {R : Prop} {G : Grammar} {form : Form} {node : Node}
    (fits : Fits (.source R) form node) (plain : node.Every (Plain G.reserved))
    (named : ∀ {name type}, G.annotated name type → IsName name) : Fits G form node := by
  have filled := fits.refill (suits_of_puts R G .own)
    (plain.imp fun _ here => ⟨here, here.1.puts named⟩)
  rwa [refill_own] at filled

end Grammar

end TypeGloss
