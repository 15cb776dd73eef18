import TypeGloss.Proofs.Fingerprint
import TypeGloss.Proofs.Refill
import TypeGloss.Proofs.Unplaced

/-!
# Formatting does not change facts

Two programs that differ in the locations of their nodes and in parentheses only have the same
facts, and the memory behind them has the same entries and counters. Every step of the collection
looks at a node in the same way as at its unformatted form.
-/

namespace TypeGloss

namespace Node

/-- The tree with parentheses around every expression. -/
def wrapAll (root : Node) : Node := root.fold fun node slots => (node.withSlots slots).wrap

/-- The tree without its formatting: every location is synthetic, and every expression stands in
parentheses. -/
def unformatted (root : Node) : Node := root.wrapAll.unplaced

theorem wrapAll_eq (node : Node) : node.wrapAll = (node.mapSlots wrapAll).wrap := by
  rw [wrapAll, fold_eq]
  rfl

@[simp] theorem unplaced_unformatted (node : Node) : node.unformatted.unplaced = node.unformatted :=
  unplaced_unplaced _

theorem unformatted_eq (node : Node) :
    node.unformatted = (node.mapSlots unformatted).wrap.unplaced := by
  rw [unformatted, wrapAll_eq]
  cases node <;> simp [mapSlots, withSlots, slots, wrap, unformatted]

theorem slots_unformatted (node : Node) : node.unformatted.slots = node.slots.map unformatted := by
  rw [unformatted_eq]
  cases node <;> simp [mapSlots, withSlots, slots, wrap]

theorem kindName_unformatted (node : Node) : node.unformatted.kindName = node.kindName := by
  rw [unformatted_eq]
  cases node <;> simp [mapSlots, withSlots, slots, wrap, kindName]

theorem unformatted_variableDeclaration (loc : Location) (keyword : Text) (declared : List Node) :
    (variableDeclaration loc keyword declared).unformatted =
      .variableDeclaration .synthetic keyword (declared.map unformatted) := by
  rw [unformatted_eq]
  simp [mapSlots, withSlots, slots, wrap]

theorem unformatted_functionDeclaration (loc : Location) (name : Node) (params : List Node)
    (body result : Node) : (functionDeclaration loc name params body result).unformatted =
      .functionDeclaration .synthetic name.unformatted (params.map unformatted) body.unformatted
        result.unformatted := by
  rw [unformatted_eq]
  simp [mapSlots, withSlots, slots, wrap]

theorem unformatted_object (loc : Location) (wrapped : Bool) (properties : List Node) :
    (object loc wrapped properties).unformatted =
      .object .synthetic true (properties.map unformatted) := by
  rw [unformatted_eq]
  simp [mapSlots, withSlots, slots, wrap]

theorem unformatted_array (loc : Location) (wrapped : Bool) (elements : List Node) :
    (array loc wrapped elements).unformatted =
      .array .synthetic true (elements.map unformatted) := by
  rw [unformatted_eq]
  simp [mapSlots, withSlots, slots, wrap]

theorem keeps_unformatted : Keeps unformatted where
  kindName := kindName_unformatted
  number _ _ _ := ⟨_, _, rfl⟩
  string _ _ _ := ⟨_, _, rfl⟩
  boolean _ _ _ := ⟨_, _, rfl⟩
  identifier _ _ _ _ := ⟨_, _, _, rfl⟩
  object _ _ _ := ⟨_, _, unformatted_object _ _ _⟩
  array _ _ _ := ⟨_, _, unformatted_array _ _ _⟩
  binary _ _ _ _ _ := ⟨_, _, rfl⟩
  property _ _ _ _ := ⟨_, rfl⟩
  returnStatement _ _ := ⟨_, rfl⟩

theorem walk_unformatted (root : Node) : root.unformatted.walk = root.walk.map unformatted :=
  walk_map slots_unformatted keeps_unformatted.isAbsent root

@[simp] theorem name_unformatted (node : Node) : node.unformatted.name = node.name :=
  keeps_unformatted.name node

theorem bound_unformatted (param : Node) : param.unformatted.bound = param.bound.unformatted := by
  cases param with
  | defaultParam loc target value => rfl
  | _ =>
    simp only [bound]
    rw [unformatted_eq]
    simp [mapSlots, withSlots, slots, wrap]

theorem interfaceName?_unformatted (node : Node) :
    node.unformatted.interfaceName? = node.interfaceName? := by
  rw [unformatted_eq]
  cases node <;> simp [mapSlots, withSlots, slots, wrap, interfaceName?]

end Node

namespace Facts

open Inference (typeOf)
open Node (keeps_unformatted)

theorem reserved_unformatted (program : Node) :
    reserved program.unformatted = reserved program := by
  rw [reserved, reserved, Node.walk_unformatted, List.filterMap_map]
  simp only [Function.comp_def, Node.interfaceName?_unformatted]

theorem typeOf_unformatted (context : Context) (node : Node) :
    typeOf context node.unformatted = typeOf context node :=
  keeps_unformatted.infer_map context false node

theorem hints_unformatted (names : List Text) (body : Node) :
    hints names body.unformatted = hints names body := by
  rw [hints, hints, Node.walk_unformatted, List.flatMap_map]
  simp only [keeps_unformatted.summands]

theorem result_unformatted (context : Context) (body : Node) (cache : Cache) :
    result context body.unformatted cache = result context body cache := by
  have values : (body.walk.map Node.unformatted).filterMap Node.returned? =
      (body.walk.filterMap Node.returned?).map Node.unformatted := by
    rw [List.filterMap_map, List.map_filterMap]
    exact List.filterMap_congr fun node _ => keeps_unformatted.returned? node
  rw [result, result, Node.walk_unformatted, values, List.foldl_map]
  simp only [typeOf_unformatted]

theorem function_unformatted (name : Node) (params : List Node) (body : Node) (cache : Cache) :
    function name.unformatted (params.map Node.unformatted) body.unformatted cache =
      function name params body cache := by
  have names : (params.map Node.unformatted).map (·.bound.name) = params.map (·.bound.name) := by
    simp only [List.map_map, Function.comp_def, Node.bound_unformatted, Node.name_unformatted]
  rw [function, function, names, hints_unformatted, result_unformatted,
    keeps_unformatted.functionName]

theorem declarator_unformatted (reserved : List Text) (state : State) (name initializer : Node) :
    declarator reserved state name.unformatted initializer.unformatted =
      declarator reserved state name initializer := by
  rw [declarator, declarator, typeOf_unformatted, Node.name_unformatted, keeps_unformatted.kind]
  cases initializer with
  | object loc wrapped properties =>
    rw [Node.unformatted_object]
    obtain ⟨shape, cache⟩ := typeOf [] (.object loc wrapped properties) state.cache
    cases shape <;> rfl
  | _ =>
    rw [Node.unformatted_eq]
    simp [Node.mapSlots, Node.withSlots, Node.slots, Node.wrap]

theorem declarators_unformatted (reserved : List Text) (declared : List Node) (state : State) :
    declarators reserved (declared.map Node.unformatted) state =
      declarators reserved declared state := by
  induction declared generalizing state with
  | nil => rfl
  | cons node rest ih =>
    cases node with
    | declarator loc name initializer =>
      rw [List.map_cons, Node.unformatted_eq]
      simp [Node.mapSlots, Node.withSlots, Node.slots, Node.wrap, declarators,
        declarator_unformatted, ih]
    | _ =>
      rw [List.map_cons, Node.unformatted_eq]
      simp [Node.mapSlots, Node.withSlots, Node.slots, Node.wrap, declarators, ih]

theorem properties_unformatted (members : List Node) (cache : Cache) :
    properties (members.map Node.unformatted) cache = properties members cache := by
  induction members generalizing cache with
  | nil => rfl
  | cons node rest ih =>
    rw [List.map_cons, Node.unformatted_eq]
    cases node <;> simp [Node.mapSlots, Node.withSlots, Node.slots, Node.wrap, properties,
      typeOf_unformatted, keeps_unformatted.propertyKey, keeps_unformatted.kind, ih]

/-- A node adds the same facts as its unformatted form, and leaves the same memory behind. -/
theorem visit_unformatted (reserved : List Text) (state : State) (node : Node) :
    visit reserved state node.unformatted = visit reserved state node := by
  cases node with
  | variableDeclaration loc keyword declared =>
    rw [Node.unformatted_variableDeclaration, visit, visit, declarators_unformatted]
  | functionDeclaration loc name params body result =>
    rw [Node.unformatted_functionDeclaration, visit, visit, function_unformatted]
  | returnStatement loc argument =>
    change visit reserved state (.returnStatement _ argument.unformatted) = _
    rw [visit, visit, keeps_unformatted.isAbsent, keeps_unformatted.kind, typeOf_unformatted]
  | object loc wrapped members =>
    have shape := typeOf_unformatted [] (.object loc wrapped members)
    rw [Node.unformatted_object] at shape ⊢
    rw [visit, visit, properties_unformatted, shape]
  | array loc wrapped elements =>
    have shape := typeOf_unformatted [] (.array loc wrapped elements)
    have kinds : (elements.map Node.unformatted).map Node.kind = elements.map Node.kind := by
      simp only [List.map_map, Function.comp_def, keeps_unformatted.kind]
    rw [Node.unformatted_array] at shape ⊢
    rw [visit, visit, shape, kinds]
  | _ =>
    rw [Node.unformatted_eq]
    simp [Node.mapSlots, Node.withSlots, Node.slots, Node.wrap, visit]

theorem collect_unformatted (program : Node) (cache : Cache) :
    collect program.unformatted cache = collect program cache := by
  rw [collect, collect, reserved_unformatted, Node.walk_unformatted, List.foldl_map]
  simp only [visit_unformatted]

/-- Programs that are equal up to locations and parentheses have the same record, and leave the same
entries and counters in a memory. -/
theorem collect_formatting (program other : Node) (same : program.unformatted = other.unformatted)
    (cache : Cache) : collect program cache = collect other cache := by
  rw [← collect_unformatted program, same, collect_unformatted]

/-- Parentheses around an operand, and a comment with a line break in front of it. -/
theorem collect_formatting_comment :
    let program (sum first second : Location) (wrapped : Bool) : Node := .program ⟨1, 1⟩
      [.variableDeclaration ⟨1, 1⟩ "let" [.declarator ⟨1, 5⟩
        (.identifier ⟨1, 5⟩ false "x" .absent)
        (.binary sum false "+" (.number first wrapped "1") (.number second false "2"))]]
    let wrapped := program ⟨1, 7⟩ ⟨1, 8⟩ ⟨1, 11⟩ true
    let broken := program ⟨2, 1⟩ ⟨2, 1⟩ ⟨2, 3⟩ false
    Source.read .typescript "let x=(1)+2" = .ok wrapped ∧
      Source.read .typescript "let x=//\n1+2" = .ok broken ∧ wrapped ≠ broken ∧
      wrapped.unformatted = broken.unformatted ∧
      collect wrapped .empty = collect broken .empty := by
  intro program wrapped broken
  have same : wrapped.unformatted = broken.unformatted := rfl
  exact ⟨rfl, rfl, by simp [wrapped, broken, program], same, collect_formatting _ _ same _⟩

end Facts

end TypeGloss
