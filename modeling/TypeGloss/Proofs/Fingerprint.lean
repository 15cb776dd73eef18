import TypeGloss.Facts.Collect
import TypeGloss.Proofs.Inference
import TypeGloss.Proofs.Syntax

/-!
# What a fingerprint depends on

A change to a tree that leaves literals, names, keys and operators alone leaves all fingerprints
alone, whatever it does to locations, parentheses and annotations. The memory works on fingerprints
only, so inference takes the same steps before and after such a change.
-/

namespace TypeGloss

/-- A change to trees that keeps what inference looks at: the kind of each node, the spelling of
literals and names, and the parts of objects, arrays, binary expressions and return statements. -/
structure Node.Keeps (f : Node → Node) : Prop where
  kindName : ∀ node, (f node).kindName = node.kindName
  number : ∀ loc wrapped raw, ∃ loc' wrapped',
    f (.number loc wrapped raw) = .number loc' wrapped' raw
  string : ∀ loc wrapped raw, ∃ loc' wrapped',
    f (.string loc wrapped raw) = .string loc' wrapped' raw
  boolean : ∀ loc wrapped value, ∃ loc' wrapped',
    f (.boolean loc wrapped value) = .boolean loc' wrapped' value
  identifier : ∀ loc wrapped name typing, ∃ loc' wrapped' typing',
    f (.identifier loc wrapped name typing) = .identifier loc' wrapped' name typing'
  object : ∀ loc wrapped properties, ∃ loc' wrapped',
    f (.object loc wrapped properties) = .object loc' wrapped' (properties.map f)
  array : ∀ loc wrapped elements, ∃ loc' wrapped',
    f (.array loc wrapped elements) = .array loc' wrapped' (elements.map f)
  binary : ∀ loc wrapped operator left right, ∃ loc' wrapped',
    f (.binary loc wrapped operator left right) = .binary loc' wrapped' operator (f left) (f right)
  property : ∀ loc key value shorthand, ∃ loc',
    f (.property loc key value shorthand) = .property loc' (f key) (f value) shorthand
  returnStatement : ∀ loc argument, ∃ loc',
    f (.returnStatement loc argument) = .returnStatement loc' (f argument)

/-- The key that an expression with a fingerprint gives to a property. -/
def Fingerprint.key : Fingerprint → Text
  | .identifier name _ => name
  | .string raw => Literal.stringText raw
  | .number raw => raw
  | _ => []

/-- The name that an expression with a fingerprint is. -/
def Fingerprint.name? : Fingerprint → Option Text
  | .identifier name _ => some name
  | _ => none

namespace Node

/-- The kinds of nodes whose fingerprints hold more than their kind. -/
def detailedKinds : List String :=
  ["undefined", "NumericLiteral", "StringLiteral", "BooleanLiteral", "Identifier",
    "ObjectExpression", "ArrayExpression", "BinaryExpression"]

theorem isAbsent_iff_kindName (node : Node) :
    node.isAbsent = true ↔ node.kindName = "undefined" := by
  cases node <;> simp [isAbsent, kindName]

theorem isProperty_or (node : Node) :
    (∃ loc key value shorthand, node = .property loc key value shorthand) ∨
      node.kindName ≠ "ObjectProperty" := by
  cases node <;> simp [kindName]

theorem fingerprint_of_kindName {node : Node} (plain : node.kindName ∉ detailedKinds)
    (context : Context) : node.fingerprint context = .other node.kindName := by
  cases node <;> simp_all [kindName, detailedKinds, fingerprint]

theorem fingerprintFields_cons_of_kindName {node : Node} (other : node.kindName ≠ "ObjectProperty")
    (context : Context) (rest : List Node) :
    fingerprintFields context (node :: rest) = fingerprintFields context rest := by
  cases node <;> simp_all [kindName, fingerprintFields]

theorem propertyKey_eq (node : Node) (context : Context) :
    node.propertyKey = (node.fingerprint context).key := by
  cases node with
  | binary loc wrapped operator left right =>
    rw [fingerprint]
    cases left.fingerprint context <;> rfl
  | _ => rfl

theorem operand?_eq (node : Node) (context : Context) :
    summands.operand? node = (node.fingerprint context).name? := by
  cases node with
  | binary loc wrapped operator left right =>
    rw [fingerprint]
    cases left.fingerprint context <;> rfl
  | _ => rfl

theorem name_eq (node : Node) : node.name = (summands.operand? node).getD [] := by
  cases node <;> rfl

theorem functionName_eq (node : Node) :
    node.functionName = if node.isAbsent then ("anonymous" : Text) else node.name := by
  cases node <;> rfl

theorem isBinary_or (node : Node) :
    (∃ loc wrapped operator left right, node = .binary loc wrapped operator left right) ∨
      node.kindName ≠ "BinaryExpression" := by
  cases node <;> simp [kindName]

theorem summands_of_kindName {node : Node} (other : node.kindName ≠ "BinaryExpression") :
    node.summands = [] := by
  cases node <;> simp_all [kindName, summands]

theorem isReturn_or (node : Node) :
    (∃ loc argument, node = .returnStatement loc argument) ∨
      node.kindName ≠ "ReturnStatement" := by
  cases node <;> simp [kindName]

theorem returned?_of_kindName {node : Node} (other : node.kindName ≠ "ReturnStatement") :
    node.returned? = none := by
  cases node <;> simp_all [kindName, returned?]

end Node

namespace Inference

theorem infer_of_kindName {node : Node} (plain : node.kindName ∉ Node.detailedKinds)
    (context : Context) (inChain : Bool) (cache : Cache) :
    infer context inChain node cache =
      if node.kindName = "NullLiteral" then cache.remember (.other "NullLiteral") (known .null)
      else (.any, cache) := by
  cases node <;> simp_all [Node.kindName, Node.detailedKinds, infer, Node.fingerprint]

theorem inferProperties_cons_of_kindName {node : Node} (other : node.kindName ≠ "ObjectProperty")
    (context : Context) (rest : List Node) (cache : Cache) :
    inferProperties context (node :: rest) cache = inferProperties context rest cache := by
  cases node <;> simp_all [Node.kindName, inferProperties]

end Inference

namespace Node.Keeps

open Inference (infer inferAll inferProperties plain)

variable {f : Node → Node}

theorem id : Keeps id where
  kindName _ := rfl
  number _ _ _ := ⟨_, _, rfl⟩
  string _ _ _ := ⟨_, _, rfl⟩
  boolean _ _ _ := ⟨_, _, rfl⟩
  identifier _ _ _ _ := ⟨_, _, _, rfl⟩
  object loc wrapped properties := ⟨loc, wrapped, by rw [List.map_id]; rfl⟩
  array loc wrapped elements := ⟨loc, wrapped, by rw [List.map_id]; rfl⟩
  binary _ _ _ _ _ := ⟨_, _, rfl⟩
  property _ _ _ _ := ⟨_, rfl⟩
  returnStatement _ _ := ⟨_, rfl⟩

theorem fingerprintAll_map {c d : Context} {nodes : List Node}
    (each : ∀ node ∈ nodes, (f node).fingerprint c = node.fingerprint d) :
    fingerprintAll c (nodes.map f) = fingerprintAll d nodes := by
  induction nodes with
  | nil => rfl
  | cons node rest ih =>
    obtain ⟨first, others⟩ := List.forall_mem_cons.mp each
    rw [List.map_cons, fingerprintAll, fingerprintAll, first, ih others]

variable (keeps : Keeps f)

include keeps

theorem isAbsent (node : Node) : (f node).isAbsent = node.isAbsent := by
  rw [Bool.eq_iff_iff, isAbsent_iff_kindName, isAbsent_iff_kindName, keeps.kindName]

theorem kind (node : Node) : (f node).kind = node.kind := by
  rw [Node.kind, Node.kind, keeps.kindName]

theorem absent : f .absent = .absent := eq_absent (keeps.isAbsent .absent)

section Fingerprint

variable {c d : Context}

theorem fingerprintFields_map {nodes : List Node}
    (each : ∀ node ∈ nodes, ∀ slot ∈ node.slots, (f slot).fingerprint c = slot.fingerprint d) :
    fingerprintFields c (nodes.map f) = fingerprintFields d nodes := by
  induction nodes with
  | nil => rfl
  | cons node rest ih =>
    obtain ⟨first, others⟩ := List.forall_mem_cons.mp each
    rw [List.map_cons]
    rcases isProperty_or node with ⟨loc, key, value, shorthand, rfl⟩ | other
    · obtain ⟨_, eq⟩ := keeps.property loc key value shorthand
      have keyEq : (f key).propertyKey = key.propertyKey := by
        rw [propertyKey_eq _ c, propertyKey_eq _ d, first key (by simp [slots])]
      rw [eq, fingerprintFields, fingerprintFields, keyEq, first value (by simp [slots]),
        ih others]
    · rw [fingerprintFields_cons_of_kindName other,
        fingerprintFields_cons_of_kindName (by rwa [keeps.kindName]), ih others]

variable (same : ∀ name, c.get? name = d.get? name)

include same

/-- The fingerprint of a changed node is that of the node. -/
theorem fingerprint_map (node : Node) : (f node).fingerprint c = node.fingerprint d := by
  -- The values of an object are two levels down, so the induction carries the slots along.
  suffices both : (f node).fingerprint c = node.fingerprint d ∧
      ∀ slot ∈ node.slots, (f slot).fingerprint c = slot.fingerprint d from both.1
  induction node using slots_induction with
  | node node ih =>
    refine ⟨?_, fun slot mem => (ih slot mem).1⟩
    by_cases plain : node.kindName ∉ detailedKinds
    · rw [fingerprint_of_kindName plain, fingerprint_of_kindName (by rwa [keeps.kindName]),
        keeps.kindName]
    cases node with
    | absent => rw [keeps.absent]; rfl
    | number loc wrapped raw =>
      obtain ⟨_, _, eq⟩ := keeps.number loc wrapped raw
      rw [eq, Node.fingerprint, Node.fingerprint]
    | string loc wrapped raw =>
      obtain ⟨_, _, eq⟩ := keeps.string loc wrapped raw
      rw [eq, Node.fingerprint, Node.fingerprint]
    | boolean loc wrapped value =>
      obtain ⟨_, _, eq⟩ := keeps.boolean loc wrapped value
      rw [eq, Node.fingerprint, Node.fingerprint]
    | identifier loc wrapped name typing =>
      obtain ⟨_, _, _, eq⟩ := keeps.identifier loc wrapped name typing
      rw [eq, Node.fingerprint, Node.fingerprint, same]
    | object loc wrapped properties =>
      obtain ⟨_, _, eq⟩ := keeps.object loc wrapped properties
      rw [eq, Node.fingerprint, Node.fingerprint,
        keeps.fingerprintFields_map fun property (mem : property ∈ properties) =>
          (ih property mem).2]
    | array loc wrapped elements =>
      obtain ⟨_, _, eq⟩ := keeps.array loc wrapped elements
      rw [eq, Node.fingerprint, Node.fingerprint,
        fingerprintAll_map fun element (mem : element ∈ elements) => (ih element mem).1]
    | binary loc wrapped operator left right =>
      obtain ⟨_, _, eq⟩ := keeps.binary loc wrapped operator left right
      rw [eq, Node.fingerprint, Node.fingerprint, (ih left (by simp [slots])).1,
        (ih right (by simp [slots])).1]
    | _ => exact absurd (by simp [Node.kindName, detailedKinds]) plain

/-- The shape of a changed node is that of the node, in contexts that know the same names. -/
theorem plain_map (node : Node) : plain c (f node) = plain d node := by
  rw [← Inference.shape_fingerprint, ← Inference.shape_fingerprint, keeps.fingerprint_map same]

end Fingerprint

theorem propertyKey (node : Node) : (f node).propertyKey = node.propertyKey := by
  rw [propertyKey_eq _ [], propertyKey_eq _ [], keeps.fingerprint_map fun _ => rfl]

section Infer

variable (context : Context)

omit keeps in
theorem inferAll_map {nodes : List Node}
    (each : ∀ node ∈ nodes, infer context false (f node) = infer context false node)
    (cache : Cache) : inferAll context (nodes.map f) cache = inferAll context nodes cache := by
  induction nodes generalizing cache with
  | nil => rfl
  | cons node rest ih =>
    obtain ⟨first, others⟩ := List.forall_mem_cons.mp each
    rw [List.map_cons, inferAll, inferAll, first]
    simp only [ih others]

theorem inferProperties_map {nodes : List Node}
    (each : ∀ node ∈ nodes, ∀ slot ∈ node.slots,
      infer context false (f slot) = infer context false slot) (cache : Cache) :
    inferProperties context (nodes.map f) cache = inferProperties context nodes cache := by
  induction nodes generalizing cache with
  | nil => rfl
  | cons node rest ih =>
    obtain ⟨first, others⟩ := List.forall_mem_cons.mp each
    rw [List.map_cons]
    rcases isProperty_or node with ⟨loc, key, value, shorthand, rfl⟩ | other
    · obtain ⟨_, eq⟩ := keeps.property loc key value shorthand
      rw [eq, inferProperties, inferProperties, keeps.propertyKey, first value (by simp [slots])]
      simp only [ih others]
    · rw [Inference.inferProperties_cons_of_kindName other,
        Inference.inferProperties_cons_of_kindName (by rwa [keeps.kindName]), ih others]

/-- Inference takes the same steps for a changed node as for the node itself. -/
theorem infer_map (inChain : Bool) (node : Node) :
    infer context inChain (f node) = infer context inChain node := by
  suffices both : (∀ inChain, infer context inChain (f node) = infer context inChain node) ∧
      ∀ slot ∈ node.slots, ∀ inChain,
        infer context inChain (f slot) = infer context inChain slot from both.1 inChain
  induction node using slots_induction with
  | node node ih =>
    refine ⟨fun inChain => funext fun cache => ?_, fun slot mem => (ih slot mem).1⟩
    by_cases plain : node.kindName ∉ detailedKinds
    · rw [Inference.infer_of_kindName plain,
        Inference.infer_of_kindName (by rwa [keeps.kindName]), keeps.kindName]
    have key := keeps.fingerprint_map (fun name => rfl : ∀ name, context.get? name = _) node
    cases node with
    | absent => rw [keeps.absent]
    | number loc wrapped raw =>
      obtain ⟨_, _, eq⟩ := keeps.number loc wrapped raw
      rw [eq] at key ⊢
      rw [infer, infer, key]
    | string loc wrapped raw =>
      obtain ⟨_, _, eq⟩ := keeps.string loc wrapped raw
      rw [eq] at key ⊢
      rw [infer, infer, key]
    | boolean loc wrapped value =>
      obtain ⟨_, _, eq⟩ := keeps.boolean loc wrapped value
      rw [eq] at key ⊢
      rw [infer, infer, key]
    | identifier loc wrapped name typing =>
      obtain ⟨_, _, _, eq⟩ := keeps.identifier loc wrapped name typing
      rw [eq] at key ⊢
      rw [infer, infer, key]
    | object loc wrapped properties =>
      obtain ⟨_, _, eq⟩ := keeps.object loc wrapped properties
      have fields := keeps.inferProperties_map context fun property (mem : property ∈ properties)
        slot inside => (ih property mem).2 slot inside false
      rw [eq] at key ⊢
      rw [infer, infer, key]
      simp only [fields]
    | array loc wrapped elements =>
      obtain ⟨_, _, eq⟩ := keeps.array loc wrapped elements
      have shapes := inferAll_map context fun element (mem : element ∈ elements) =>
        (ih element mem).1 false
      rw [eq] at key ⊢
      rw [infer, infer, key]
      simp only [shapes]
    | binary loc wrapped operator left right =>
      obtain ⟨_, _, eq⟩ := keeps.binary loc wrapped operator left right
      rw [eq] at key ⊢
      rw [infer, infer, key, (ih left (by simp [slots])).1, (ih right (by simp [slots])).1]
    | _ => exact absurd (by simp [Node.kindName, detailedKinds]) plain

end Infer

section Facts

theorem operand? (node : Node) : summands.operand? (f node) = summands.operand? node := by
  rw [operand?_eq _ [], operand?_eq _ [], keeps.fingerprint_map fun _ => rfl]

theorem name (node : Node) : (f node).name = node.name := by
  rw [name_eq, name_eq, keeps.operand?]

theorem functionName (node : Node) : (f node).functionName = node.functionName := by
  rw [functionName_eq, functionName_eq, keeps.isAbsent, keeps.name]

theorem summands (node : Node) : (f node).summands = node.summands := by
  rcases isBinary_or node with ⟨loc, wrapped, operator, left, right, rfl⟩ | other
  · obtain ⟨_, _, eq⟩ := keeps.binary loc wrapped operator left right
    simp only [eq, Node.summands, List.filterMap_cons, keeps.operand?]
  · rw [summands_of_kindName other, summands_of_kindName (by rwa [keeps.kindName])]

theorem returned? (node : Node) : (f node).returned? = node.returned?.map f := by
  rcases isReturn_or node with ⟨loc, argument, rfl⟩ | other
  · obtain ⟨_, eq⟩ := keeps.returnStatement loc argument
    rw [eq, Node.returned?, Node.returned?, keeps.isAbsent]
    split <;> rfl
  · rw [returned?_of_kindName other, returned?_of_kindName (by rwa [keeps.kindName])]
    rfl

end Facts

end Node.Keeps

end TypeGloss
