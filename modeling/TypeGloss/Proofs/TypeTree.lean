import TypeGloss.Proofs.Grammar
import TypeGloss.Proofs.Syntax

/-!
# Type syntax

The trees that stand as types: words, names with arguments, unions, arrays, bodies in braces and
function types. Which names and keys occur is left open.
-/

namespace TypeGloss

open Lexeme (isWordText IsNumber IsString)

namespace Grammar

/-- The kinds of slots in type syntax. -/
inductive TypeSlot where
  | type
  /-- A member of a type body. -/
  | signature
  /-- A parameter of a function type. -/
  | binding

/-- Type syntax, with names and keys of certain kinds. -/
inductive TypeTree (W : Text → Prop) (K : MemberKey → Prop) : TypeSlot → Node → Prop
  | word {loc word} (isWord : W word) : TypeTree W K .type (.keywordType loc word)
  | reference {loc name arguments} (isName : W name)
      (each : ∀ a ∈ arguments, TypeTree W K .type a) :
      TypeTree W K .type (.typeReference loc name arguments)
  | union {loc members} (some : members ≠ []) (each : ∀ m ∈ members, TypeTree W K .type m) :
      TypeTree W K .type (.unionType loc members)
  | array {loc element} (inner : TypeTree W K .type element) :
      TypeTree W K .type (.arrayType loc element)
  | literal {loc members} (each : ∀ m ∈ members, TypeTree W K .signature m) :
      TypeTree W K .type (.typeLiteral loc members)
  | function {loc params result} (each : ∀ p ∈ params, TypeTree W K .binding p)
      (inner : TypeTree W K .type result) :
      TypeTree W K .type (.functionType loc params result)
  | signature {loc key type optional} (isKey : K key) (inner : TypeTree W K .type type) :
      TypeTree W K .signature (.propertySignature loc key type optional)
  | binding {loc name type} (isName : W name) (inner : TypeTree W K .type type) :
      TypeTree W K .binding (.identifier loc false name type)

/-- An interface declaration, with names and keys of certain kinds. -/
inductive InterfaceTree (W : Text → Prop) (K : MemberKey → Prop) : Node → Prop
  | mk {loc nameLoc name members} (isName : W name)
      (each : ∀ m ∈ members, TypeTree W K .signature m) :
      InterfaceTree W K
        (.interfaceDeclaration loc (.identifier nameLoc false name .absent) members)

/-- A key that is spelled as one. -/
inductive SpelledKey : MemberKey → Prop
  | name {name : Text} (word : isWordText name = true) : SpelledKey (.name name)
  | string {raw : Text} (spelling : IsString raw) : SpelledKey (.string raw)
  | number {raw : Text} (spelling : IsNumber raw) : SpelledKey (.number raw)

/-- A grammar whose annotations are type syntax, with names and keys of certain kinds. -/
def withTypes (W : Text → Prop) (K : MemberKey → Prop) (reserved : Prop) : Grammar where
  annotated name type := isWordText name = true ∧ TypeTree W K .type type
  result := TypeTree W K .type
  interface := InterfaceTree W K
  reserved := reserved

/-- The grammar of the trees that are read. -/
def source (reserved : Prop) : Grammar := withTypes (isWordText · = true) SpelledKey reserved

/-- Whether a node can stand in type syntax or declares an interface. -/
def isTypePart : Node → Bool
  | .absent | .identifier .. | .interfaceDeclaration .. => true
  | node => node.isType

variable {W : Text → Prop} {K : MemberKey → Prop}

theorem TypeTree.isAbsent {slot : TypeSlot} {node : Node} (tree : TypeTree W K slot node) :
    node.isAbsent = false := by
  cases tree <;> rfl

/-- What holds of type syntax holds throughout a type. -/
theorem TypeTree.every_of_tree {p : Node → Prop}
    (here : ∀ {slot node}, TypeTree W K slot node → p node) {slot : TypeSlot} {node : Node}
    (tree : TypeTree W K slot node) : node.Every p := by
  induction tree with
  | word isWord => exact .mk (here (.word isWord)) nofun
  | reference isName each ih => exact .mk (here (.reference isName each)) ih
  | union some each ih => exact .mk (here (.union some each)) ih
  | array inner ih => exact .mk (here (.array inner)) (List.forall_mem_singleton.mpr ih)
  | literal each ih => exact .mk (here (.literal each)) ih
  | function each inner ihEach ih =>
    exact .mk (here (.function each inner))
      (List.forall_mem_append.mpr ⟨ihEach, List.forall_mem_singleton.mpr ih⟩)
  | signature isKey inner ih =>
    exact .mk (here (.signature isKey inner)) (List.forall_mem_singleton.mpr ih)
  | binding isName inner ih =>
    exact .mk (here (.binding isName inner)) (List.forall_mem_singleton.mpr ih)

/-- What holds of type syntax and of names holds throughout a type. -/
theorem TypeTree.every_of {p : Node → Prop} (here : ∀ node : Node, node.isType = true → p node)
    (name : ∀ {loc name type}, p (.identifier loc false name type)) {slot : TypeSlot} {node : Node}
    (tree : TypeTree W K slot node) : node.Every p :=
  tree.every_of_tree fun tree => by cases tree <;> first | exact here _ rfl | exact name

theorem TypeTree.every {slot : TypeSlot} {node : Node} (tree : TypeTree W K slot node) :
    node.Every (isTypePart · = true) :=
  tree.every_of (fun node isType => by cases node <;> first | rfl | cases isType) rfl

theorem InterfaceTree.every {node : Node} (tree : InterfaceTree W K node) :
    node.Every (isTypePart · = true) := by
  obtain ⟨-, each⟩ := tree
  refine .mk rfl (List.forall_mem_cons.mpr ⟨.mk rfl ?_, fun m mem => (each m mem).every⟩)
  exact List.forall_mem_singleton.mpr (.mk rfl nofun)

theorem TypeTree.mono {W' : Text → Prop} {K' : MemberKey → Prop} (words : ∀ t, W t → W' t)
    (keys : ∀ k, K k → K' k) {slot : TypeSlot} {node : Node} (tree : TypeTree W K slot node) :
    TypeTree W' K' slot node := by
  induction tree with
  | word isWord => exact .word (words _ isWord)
  | reference isName _ ih => exact .reference (words _ isName) ih
  | union some _ ih => exact .union some ih
  | array _ ih => exact .array ih
  | literal _ ih => exact .literal ih
  | function _ _ ihEach ih => exact .function ihEach ih
  | signature isKey _ ih => exact .signature (keys _ isKey) ih
  | binding isName _ ih => exact .binding (words _ isName) ih

end Grammar

end TypeGloss
