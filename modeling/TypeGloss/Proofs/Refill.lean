import Mathlib.Data.List.Forall2
import TypeGloss.Gloss.Annotate
import TypeGloss.Proofs.Syntax

/-!
# Types put into a tree

Filling a tree takes the types for its declarations from a list, in the order in which it meets the
declarations. If the list has the types for each declaration in the order of a walk, the same tree
comes out when each declaration is given its own types. So a tree that is filled can be described
node by node.
-/

namespace TypeGloss

namespace Node

theorem sizeOf_induction {motive : Node → Prop}
    (node : ∀ node : Node, (∀ inner : Node, sizeOf inner < sizeOf node → motive inner) →
      motive node) (root : Node) : motive root :=
  node root fun inner _ => sizeOf_induction node inner
termination_by sizeOf root

/-- The node with each slot changed by a function. -/
def mapSlots (f : Node → Node) (node : Node) : Node := node.withSlots (node.slots.map f)

@[simp] theorem slots_mapSlots (f : Node → Node) (node : Node) :
    (node.mapSlots f).slots = node.slots.map f := by
  cases node <;> simp [mapSlots, withSlots, slots]

theorem mapSlots_mapSlots (f g : Node → Node) (node : Node) :
    (node.mapSlots f).mapSlots g = node.mapSlots fun slot => g (f slot) := by
  cases node <;> simp [mapSlots, withSlots, slots]

theorem mapSlots_congr {f g : Node → Node} {node : Node}
    (same : ∀ slot ∈ node.slots, f slot = g slot) :
    node.mapSlots f = node.mapSlots g := by
  rw [mapSlots, mapSlots, List.map_congr_left same]

theorem mapSlots_eq_self {f : Node → Node} {node : Node}
    (same : ∀ slot ∈ node.slots, f slot = slot) :
    node.mapSlots f = node := by
  rw [mapSlots, List.map_congr_left same, List.map_id', withSlots_slots]

end Node

namespace Gloss

/-- The types for the slots of each declaration. -/
structure Types where
  /-- The types of the variables of a declaration. -/
  declaration : Node → List Node
  /-- The types of a function. -/
  function : Node → FunctionTypes

variable (types : Types)

/-- Puts the types of a declaration into the same declaration with other slots. -/
def put (node rebuilt : Node) : Node :=
  match node, rebuilt with
  | .variableDeclaration .., .variableDeclaration loc keyword declared =>
    .variableDeclaration loc keyword (declared.zipWith typeDeclarator (types.declaration node))
  | .functionDeclaration .., .functionDeclaration loc name params body _ =>
    .functionDeclaration loc name (params.zipWith typeParam (types.function node).params) body
      (types.function node).result
  | _, rebuilt => rebuilt

/-- The tree with its own types in the slots of each declaration. -/
def refill (root : Node) : Node :=
  root.fold fun node slots => put types node (node.withSlots slots)

theorem refill_eq (node : Node) :
    refill types node = put types node (node.mapSlots (refill types)) := by
  rw [refill, Node.fold_eq]
  rfl

/-- Only declarations are given types. -/
theorem refill_of_other {node : Node} (noDeclaration : isDeclaration node = false)
    (noFunction : isFunction node = false) :
    refill types node = node.mapSlots (refill types) := by
  rw [refill_eq]
  cases node with
  | variableDeclaration => cases noDeclaration
  | functionDeclaration => cases noFunction
  | _ => rfl

/-- A tree without declarations is given no types. -/
theorem refill_eq_self {root : Node}
    (every : root.Every fun node => isDeclaration node = false ∧ isFunction node = false) :
    refill types root = root := by
  induction every with
  | mk other _ ih =>
    rw [refill_of_other types other.1 other.2]
    exact Node.mapSlots_eq_self ih

theorem refill_declaration (loc : Location) (keyword : Text) (declared : List Node) :
    refill types (.variableDeclaration loc keyword declared) =
      .variableDeclaration loc keyword ((declared.map (refill types)).zipWith typeDeclarator
        (types.declaration (.variableDeclaration loc keyword declared))) := by
  rw [refill_eq]
  rfl

theorem refill_function (loc : Location) (name : Node) (params : List Node) (body result : Node) :
    let node := Node.functionDeclaration loc name params body result
    refill types node = .functionDeclaration loc (refill types name)
      ((params.map (refill types)).zipWith typeParam (types.function node).params)
      (refill types body) (types.function node).result := by
  intro node
  have slots : node.mapSlots (refill types) = .functionDeclaration loc (refill types name)
      (params.map (refill types)) (refill types body) (refill types result) := by
    simp [node, Node.mapSlots, Node.withSlots, Node.slots]
  rw [refill_eq, slots]
  rfl

@[simp] theorem refill_absent : refill types .absent = .absent := rfl

@[simp] theorem refill_identifier (loc : Location) (wrapped : Bool) (name : Text) (typing : Node) :
    refill types (.identifier loc wrapped name typing) =
      .identifier loc wrapped name (refill types typing) := rfl

@[simp] theorem refill_declarator (loc : Location) (name initializer : Node) :
    refill types (.declarator loc name initializer) =
      .declarator loc (refill types name) (refill types initializer) := rfl

@[simp] theorem refill_defaultParam (loc : Location) (target value : Node) :
    refill types (.defaultParam loc target value) =
      .defaultParam loc (refill types target) (refill types value) := rfl

/-- The types for declarations among nodes, in their order, and then another plan. -/
def planOf (nodes : List Node) (rest : Plan) : Plan :=
  ⟨(nodes.filter isDeclaration).map types.declaration ++ rest.declarations,
   (nodes.filter isFunction).map types.function ++ rest.functions⟩

theorem planOf_append (nodes others : List Node) (rest : Plan) :
    planOf types (nodes ++ others) rest = planOf types nodes (planOf types others rest) := by
  simp [planOf]

/-- A node takes its own entry from the plan. -/
theorem takeEntry_fst (node rebuilt : Node) (rest : Plan) :
    (takeEntry node (planOf types [node] rest)).1 rebuilt = put types node rebuilt := by
  cases node with
  | variableDeclaration => cases rebuilt <;> rfl
  | functionDeclaration => cases rebuilt <;> rfl
  | _ => rfl

theorem takeEntry_snd (node : Node) (rest : Plan) :
    (takeEntry node (planOf types [node] rest)).2 = rest := by
  cases node <;> rfl

/-- Filling a tree by the plan for its walk puts its own types into each declaration, and leaves
what stands behind in the plan. -/
theorem fill_planOf (node : Node) (rest : Plan) :
    fill node (planOf types node.preorder rest) = (refill types node, rest) := by
  induction node using Node.slots_induction generalizing rest with
  | node node ih =>
  have slots (nodes : List Node) (inside : ∀ slot ∈ nodes, slot ∈ node.slots) (rest : Plan) :
      fillSlots (nodes.map fill) (planOf types (nodes.flatMap Node.preorder) rest) =
        (nodes.map (refill types), rest) := by
    induction nodes with
    | nil => rfl
    | cons slot nodes ihNodes =>
      obtain ⟨here, others⟩ := List.forall_mem_cons.mp inside
      simp only [List.map_cons, List.flatMap_cons, planOf_append, fillSlots, ih slot here,
        ihNodes others]
  have unfolded (plan : Plan) : fill node plan =
      ((takeEntry node plan).1
          (node.withSlots (fillSlots (node.slots.map fill) (takeEntry node plan).2).1),
        (fillSlots (node.slots.map fill) (takeEntry node plan).2).2) := by
    rw [fill, Node.fold_eq]
    rfl
  cases absent : node.isAbsent with
  | true =>
    obtain rfl := Node.eq_absent absent
    rfl
  | false =>
    have walk : node.preorder = [node] ++ node.slots.flatMap Node.preorder := by
      rw [Node.preorder_eq, if_neg (by simp [absent])]
      rfl
    rw [unfolded, walk, planOf_append, takeEntry_snd, slots _ (fun _ mem => mem), takeEntry_fst,
      refill_eq]
    rfl

/-- Whether a node is a name, which can have a type. -/
def isName : Node → Bool
  | .identifier .. => true
  | _ => false

/-- Whether a node declares a name, with a value or without. -/
def declaresName : Node → Bool
  | .declarator _ name _ => isName name
  | _ => false

/-- Whether a node is a name as a parameter, with a default value or without. -/
def bindsName : Node → Bool
  | .defaultParam _ target _ => isName target
  | node => isName node

/-- Names that are declared, and types for them, which are related to those they have. -/
def Pairs (P : Node → Node → Prop) (nodes types : List Node) (binds : Node → Bool)
    (name : Node → Node) : Prop :=
  List.Forall₂ (fun node type => binds node = true ∧ P (typingOf (name node)) type) nodes types

/-- The types of a declaration are as many as its slots and related to what these hold: those of
names by `P`, and those of results by `Q`. -/
def Puts (P Q : Node → Node → Prop) (node : Node) : Prop :=
  match node with
  | .variableDeclaration _ _ declared =>
    Pairs P declared (types.declaration node) declaresName declaredBy
  | .functionDeclaration _ _ params _ result =>
    Pairs P params (types.function node).params bindsName Node.bound ∧
      Q result (types.function node).result
  | _ => True

theorem Puts.mono {P P' Q Q' : Node → Node → Prop} (left : ∀ old new, P old new → P' old new)
    (right : ∀ old new, Q old new → Q' old new) {node : Node} (puts : Puts types P Q node) :
    Puts types P' Q' node := by
  cases node with
  | variableDeclaration => exact List.Forall₂.imp (fun _ _ both => ⟨both.1, left _ _ both.2⟩) puts
  | functionDeclaration =>
    exact ⟨List.Forall₂.imp (fun _ _ both => ⟨both.1, left _ _ both.2⟩) puts.1, right _ _ puts.2⟩
  | _ => trivial

/-- A declaration without its types. -/
def eraseTypes : Node → Node
  | .variableDeclaration loc keyword declared =>
    .variableDeclaration loc keyword (declared.map (typeDeclarator · .absent))
  | .functionDeclaration loc name params body _ =>
    .functionDeclaration loc name (params.map (typeParam · .absent)) body .absent
  | node => node

/-- The tree without the types of its variables and of its declared functions. All else stays. -/
def bare (root : Node) : Node := root.fold fun node slots => eraseTypes (node.withSlots slots)

theorem bare_eq (node : Node) : bare node = eraseTypes (node.mapSlots bare) := by
  rw [bare, Node.fold_eq]
  rfl

@[simp] theorem bare_identifier (loc : Location) (wrapped : Bool) (name : Text) (typing : Node) :
    bare (.identifier loc wrapped name typing) = .identifier loc wrapped name (bare typing) := rfl

@[simp] theorem bare_declarator (loc : Location) (name initializer : Node) :
    bare (.declarator loc name initializer) = .declarator loc (bare name) (bare initializer) := rfl

@[simp] theorem bare_defaultParam (loc : Location) (target value : Node) :
    bare (.defaultParam loc target value) = .defaultParam loc (bare target) (bare value) := rfl

theorem bare_declaration (loc : Location) (keyword : Text) (declared : List Node) :
    bare (.variableDeclaration loc keyword declared) =
      .variableDeclaration loc keyword (declared.map fun d => typeDeclarator (bare d) .absent) := by
  simp [bare_eq (.variableDeclaration loc keyword declared), Node.mapSlots, Node.withSlots,
    Node.slots, eraseTypes]

theorem bare_function (loc : Location) (name : Node) (params : List Node) (body result : Node) :
    bare (.functionDeclaration loc name params body result) =
      .functionDeclaration loc (bare name) (params.map fun p => typeParam (bare p) .absent)
        (bare body) .absent := by
  simp [bare_eq (.functionDeclaration loc name params body result), Node.mapSlots, Node.withSlots,
    Node.slots, eraseTypes]

/-- The types of a declaration. -/
def typings : Node → List Node
  | .variableDeclaration _ _ declared => declared.map fun d => typingOf (declaredBy d)
  | .functionDeclaration _ _ params _ result => params.map (fun p => typingOf p.bound) ++ [result]
  | _ => []

section Lists

variable {α β γ δ : Type} {f : α → β → γ} {as : List α} {bs : List β}

theorem map_zipWith_of {g : γ → δ} {h : α → δ}
    (each : List.Forall₂ (fun a b => g (f a b) = h a) as bs) :
    (List.zipWith f as bs).map g = as.map h := by
  induction each with
  | nil => rfl
  | cons head _ ih => simp only [List.zipWith_cons_cons, List.map_cons, head, ih]

theorem flatMap_zipWith_of {g : γ → List δ} {h : α → List δ}
    (each : List.Forall₂ (fun a b => g (f a b) = h a) as bs) :
    (List.zipWith f as bs).flatMap g = as.flatMap h := by
  induction each with
  | nil => rfl
  | cons head _ ih => simp only [List.zipWith_cons_cons, List.flatMap_cons, head, ih]

end Lists

theorem declaresName_iff {node : Node} : declaresName node = true ↔
    ∃ loc nameLoc wrapped name typing initializer,
      node = .declarator loc (.identifier nameLoc wrapped name typing) initializer := by
  cases node with
  | declarator loc name initializer => cases name <;> simp [declaresName, isName]
  | _ => simp [declaresName]

theorem bindsName_iff {node : Node} : bindsName node = true ↔
    (∃ loc wrapped name typing, node = .identifier loc wrapped name typing) ∨
      ∃ loc nameLoc wrapped name typing value,
        node = .defaultParam loc (.identifier nameLoc wrapped name typing) value := by
  cases node with
  | defaultParam loc target value => cases target <;> simp [bindsName, isName]
  | _ => simp [bindsName, isName]

section Erasure

variable {types}

/-- A type that is put into a declarator is erased again. -/
theorem bare_typeDeclarator {node type : Node} (declares : declaresName node = true)
    (inner : ∀ slot ∈ node.slots, bare (refill types slot) = bare slot) :
    typeDeclarator (bare (typeDeclarator (refill types node) type)) .absent =
      typeDeclarator (bare node) .absent := by
  obtain ⟨loc, nameLoc, wrapped, name, typing, initializer, rfl⟩ := declaresName_iff.mp declares
  have value := inner initializer (by simp [Node.slots])
  simp [typeDeclarator, withTyping, value]

/-- A type that is put into a parameter is erased again. -/
theorem bare_typeParam {node type : Node} (binds : bindsName node = true)
    (inner : ∀ slot ∈ node.slots, bare (refill types slot) = bare slot) :
    typeParam (bare (typeParam (refill types node) type)) .absent =
      typeParam (bare node) .absent := by
  rcases bindsName_iff.mp binds with ⟨loc, wrapped, name, typing, rfl⟩ |
    ⟨loc, nameLoc, wrapped, name, typing, value, rfl⟩
  · simp [typeParam, withTyping]
  · have value := inner value (by simp [Node.slots])
    simp [typeParam, withTyping, value]

/-- Types that are put in are erased with those that were there. -/
theorem bare_refill {root : Node}
    (every : root.Every (Puts types (fun _ _ => True) fun _ _ => True)) :
    bare (refill types root) = bare root := by
  induction root using Node.sizeOf_induction with
  | node node ih =>
  have inner : ∀ slot ∈ node.slots, bare (refill types slot) = bare slot := fun slot mem =>
    ih slot (Node.sizeOf_lt_of_mem_slots mem) (every.each slot mem)
  have deep : ∀ slot ∈ node.slots, ∀ inner ∈ slot.slots, bare (refill types inner) = bare inner :=
    fun slot mem inner inside => ih inner
      (Nat.lt_trans (Node.sizeOf_lt_of_mem_slots inside) (Node.sizeOf_lt_of_mem_slots mem))
      ((every.each slot mem).each inner inside)
  cases node with
  | variableDeclaration loc keyword declared =>
    have each := (List.forall₂_and_left _ _).mpr ⟨fun d (mem : d ∈ declared) => mem, every.here⟩
    rw [refill_declaration, bare_declaration, bare_declaration, List.zipWith_map_left,
      map_zipWith_of (each.imp fun d type both => bare_typeDeclarator both.2.1 (deep d both.1))]
  | functionDeclaration loc name params body result =>
    have each := (List.forall₂_and_left _ _).mpr ⟨fun p (mem : p ∈ params) => mem, every.here.1⟩
    have slot (p : Node) (mem : p ∈ params) :
        p ∈ (Node.functionDeclaration loc name params body result).slots := by
      simp [Node.slots, mem]
    rw [refill_function, bare_function, bare_function, List.zipWith_map_left,
      map_zipWith_of (each.imp fun p type both => bare_typeParam both.2.1 (deep p (slot p both.1))),
      inner name (by simp [Node.slots]), inner body (by simp [Node.slots])]
  | _ =>
    rw [refill_of_other types rfl rfl, bare_eq, Node.mapSlots_mapSlots, bare_eq,
      Node.mapSlots_congr inner]

end Erasure

/-- Whether a node only binds a name. -/
def isBinding : Node → Bool
  | .identifier .. | .declarator .. | .defaultParam .. => true
  | _ => false

section Walk

variable {types} {α : Type} {q q' : Node → Option α}

@[simp] theorem isAbsent_refill (node : Node) :
    (refill types node).isAbsent = node.isAbsent := by
  rw [refill_eq]
  cases node <;> simp [put, Node.mapSlots, Node.withSlots, Node.slots, Node.isAbsent]

/-- What a question finds among the nodes of a tree. -/
def finds (q : Node → Option α) (root : Node) : List α := root.preorder.filterMap q

theorem finds_eq {node : Node} (present : node.isAbsent = false) :
    finds q node = (q node).toList ++ node.slots.flatMap (finds q) := by
  unfold finds
  rw [Node.preorder_eq, if_neg (by simp [present]), List.filterMap_cons, List.filterMap_flatMap]
  cases q node <;> rfl

/-- A question that finds nothing in names and what binds them. -/
def Quiet (q : Node → Option α) : Prop := ∀ node, isBinding node = true → q node = none

theorem Quiet.finds_identifier (quiet : Quiet q) (loc : Location) (wrapped : Bool) (name : Text)
    (typing : Node) : finds q (.identifier loc wrapped name typing) = finds q typing := by
  rw [finds_eq rfl, quiet _ rfl]
  simp [Node.slots]

theorem Quiet.finds_declarator (quiet : Quiet q) (loc : Location) (name initializer : Node) :
    finds q (.declarator loc name initializer) = finds q name ++ finds q initializer := by
  rw [finds_eq rfl, quiet _ rfl]
  simp [Node.slots]

theorem Quiet.finds_defaultParam (quiet : Quiet q) (loc : Location) (target value : Node) :
    finds q (.defaultParam loc target value) = finds q target ++ finds q value := by
  rw [finds_eq rfl, quiet _ rfl]
  simp [Node.slots]

/-- What is found in a declarator whose name is given a type. -/
theorem finds_typeDeclarator (quiet : Quiet q) (quiet' : Quiet q') {node type : Node}
    (declares : declaresName node = true)
    (found : finds q' type = finds q (typingOf (declaredBy node)))
    (inner : ∀ slot ∈ node.slots, finds q' (refill types slot) = finds q slot) :
    finds q' (typeDeclarator (refill types node) type) = finds q node := by
  obtain ⟨loc, nameLoc, wrapped, name, typing, initializer, rfl⟩ := declaresName_iff.mp declares
  have value := inner initializer (by simp [Node.slots])
  simp only [refill_declarator, refill_identifier, typeDeclarator, withTyping, declaredBy,
    typingOf] at found ⊢
  rw [quiet.finds_declarator, quiet'.finds_declarator, quiet.finds_identifier,
    quiet'.finds_identifier, found, value]

/-- What is found in a parameter that is given a type. -/
theorem finds_typeParam (quiet : Quiet q) (quiet' : Quiet q') {node type : Node}
    (binds : bindsName node = true) (found : finds q' type = finds q (typingOf node.bound))
    (inner : ∀ slot ∈ node.slots, finds q' (refill types slot) = finds q slot) :
    finds q' (typeParam (refill types node) type) = finds q node := by
  rcases bindsName_iff.mp binds with ⟨loc, wrapped, name, typing, rfl⟩ |
    ⟨loc, nameLoc, wrapped, name, typing, value, rfl⟩
  · simp only [refill_identifier, typeParam, withTyping, Node.bound, typingOf] at found ⊢
    rw [quiet.finds_identifier, quiet'.finds_identifier, found]
  · have value := inner value (by simp [Node.slots])
    simp only [refill_defaultParam, refill_identifier, typeParam, withTyping, Node.bound,
      typingOf] at found ⊢
    rw [quiet.finds_defaultParam, quiet'.finds_defaultParam, quiet.finds_identifier,
      quiet'.finds_identifier, found, value]

/-- A question finds in a tree with types what another one finds without, if it does so at each
node and in each slot. -/
theorem finds_refill (quiet : Quiet q) (quiet' : Quiet q') {root : Node}
    (every : root.Every fun node => q' (refill types node) = q node ∧
      Puts types (fun old new => finds q' new = finds q old)
        (fun old new => finds q' new = finds q old) node) :
    finds q' (refill types root) = finds q root := by
  induction root using Node.sizeOf_induction with
  | node node ih =>
  have inner : ∀ slot ∈ node.slots, finds q' (refill types slot) = finds q slot :=
    fun slot mem => ih slot (Node.sizeOf_lt_of_mem_slots mem) (every.each slot mem)
  have deep : ∀ slot ∈ node.slots, ∀ inner ∈ slot.slots,
      finds q' (refill types inner) = finds q inner :=
    fun slot mem inner inside => ih inner
      (Nat.lt_trans (Node.sizeOf_lt_of_mem_slots inside) (Node.sizeOf_lt_of_mem_slots mem))
      ((every.each slot mem).each inner inside)
  cases absent : node.isAbsent with
  | true =>
    obtain rfl := Node.eq_absent absent
    rfl
  | false =>
  rw [finds_eq absent, finds_eq (by simp [absent]), every.here.1]
  congr 1
  have puts := every.here.2
  cases node with
  | variableDeclaration loc keyword declared =>
    have each := (List.forall₂_and_left _ _).mpr ⟨fun d (mem : d ∈ declared) => mem, puts⟩
    rw [refill_declaration, Node.slots, Node.slots, List.zipWith_map_left]
    refine flatMap_zipWith_of (each.imp fun d type both => ?_)
    exact finds_typeDeclarator quiet quiet' both.2.1 both.2.2 (deep d both.1)
  | functionDeclaration loc name params body result =>
    have each := (List.forall₂_and_left _ _).mpr ⟨fun p (mem : p ∈ params) => mem, puts.1⟩
    have slot (p : Node) (mem : p ∈ params) :
        p ∈ (Node.functionDeclaration loc name params body result).slots := by
      simp [Node.slots, mem]
    have found := flatMap_zipWith_of (each.imp fun p type both =>
      finds_typeParam quiet quiet' both.2.1 both.2.2 (deep p (slot p both.1)))
    rw [refill_function, Node.slots, Node.slots, List.zipWith_map_left]
    simp only [List.cons_append, List.flatMap_cons, List.flatMap_append, List.flatMap_nil, found,
      inner name (by simp [Node.slots]), inner body (by simp [Node.slots]), puts.2]
  | _ =>
    rw [refill_of_other types rfl rfl, Node.slots_mapSlots, List.flatMap_map]
    exact List.flatMap_congr inner

theorem finds_eq_nil {root : Node} (every : root.Every (q · = none)) : finds q root = [] := by
  rw [finds, ← Node.walk_eq_preorder, List.filterMap_eq_nil_iff]
  exact Node.walk_of_every every

/-- The declarations of a tree, asked one thing each, are what a question finds. -/
theorem map_filter_preorder (isKind : Node → Bool) (f : Node → α) (root : Node) :
    (root.preorder.filter isKind).map f =
      finds (fun node => if isKind node then some (f node) else none) root := by
  rw [finds, ← List.filterMap_eq_map, List.filterMap_filter]
  rfl

end Walk

section Kinds

@[simp] theorem isDeclaration_refill (node : Node) :
    isDeclaration (refill types node) = isDeclaration node := by
  rw [refill_eq]
  cases node <;> simp [put, Node.mapSlots, Node.withSlots, Node.slots, isDeclaration]

@[simp] theorem isFunction_refill (node : Node) :
    isFunction (refill types node) = isFunction node := by
  rw [refill_eq]
  cases node <;> simp [put, Node.mapSlots, Node.withSlots, Node.slots, isFunction]

variable {types} {P Q : Node → Node → Prop}

theorem Pairs.typings_declarators {declared new : List Node}
    (pairs : Pairs P declared new declaresName declaredBy) :
    (List.zipWith typeDeclarator (declared.map (refill types)) new).map
      (fun d => typingOf (declaredBy d)) = new := by
  induction pairs with
  | nil => rfl
  | cons both _ ih =>
    obtain ⟨loc, nameLoc, wrapped, name, typing, initializer, rfl⟩ := declaresName_iff.mp both.1
    simp only [List.map_cons, List.zipWith_cons_cons, ih]
    rfl

theorem Pairs.typings_params {params new : List Node}
    (pairs : Pairs P params new bindsName Node.bound) :
    (List.zipWith typeParam (params.map (refill types)) new).map
      (fun p => typingOf p.bound) = new := by
  induction pairs with
  | nil => rfl
  | cons both _ ih =>
    simp only [List.map_cons, List.zipWith_cons_cons, ih]
    rcases bindsName_iff.mp both.1 with ⟨loc, wrapped, name, typing, rfl⟩ |
      ⟨loc, nameLoc, wrapped, name, typing, value, rfl⟩ <;> rfl

/-- The types of a variable declaration are those that were put into it. -/
theorem typings_refill_declaration {node : Node} (declares : isDeclaration node = true)
    (puts : Puts types P Q node) : typings (refill types node) = types.declaration node := by
  cases node with
  | variableDeclaration loc keyword declared =>
    rw [refill_declaration]
    exact Pairs.typings_declarators puts
  | _ => cases declares

/-- The types of a function declaration are those that were put into it. -/
theorem typings_refill_function {node : Node} (declares : isFunction node = true)
    (puts : Puts types P Q node) :
    typings (refill types node) =
      (types.function node).params ++ [(types.function node).result] := by
  cases node with
  | functionDeclaration loc name params body result =>
    rw [refill_function]
    exact congrArg (· ++ _) (Pairs.typings_params puts.1)
  | _ => cases declares

end Kinds

end Gloss

end TypeGloss
