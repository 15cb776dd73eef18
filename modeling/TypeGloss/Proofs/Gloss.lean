import TypeGloss.Proofs.Facts
import TypeGloss.Proofs.RefillFits
import TypeGloss.Proofs.Soundness.Source
import TypeGloss.Proofs.TypeSyntax

/-!
# What an annotated program holds

The record of a program annotates it without a mismatch. Each declaration has its own fact, so the
annotated tree is the program with the types of its facts put into each declaration, behind one
declaration for each interface of the table.
-/

namespace TypeGloss

open Grammar (Fits TypeTree)

namespace Gloss

open Facts (IsRecordOf declarationFact functionFact)

/-- The type that a slot has in the end. -/
def slot (known : List Text) (typing : Node) (shape : Shape) : Node :=
  (slotType known typing shape).toOption.getD .absent

section Slot

variable {known : List Text} {typing : Node} {shape : Shape}

theorem slotType_eq (annotates : shape.Annotates known) :
    slotType known typing shape = .ok (slot known typing shape) := by
  obtain ⟨type, written, -⟩ := annotates.created
  unfold slot slotType
  split
  · rw [written]
    rfl
  · rfl

/-- A slot holds what it held before, or else created type syntax. -/
theorem slot_cases (annotates : shape.Annotates known) :
    (typing.isAbsent = true ∧ Created known .single (slot known typing shape)) ∨
      (typing.isAbsent = false ∧ slot known typing shape = typing) := by
  obtain ⟨type, written, created⟩ := annotates.created
  unfold slot slotType
  cases absent : typing.isAbsent with
  | true =>
    rw [if_pos rfl, written]
    exact .inl ⟨rfl, created⟩
  | false => exact .inr ⟨rfl, rfl⟩

end Slot

/-- The types that the facts of declarations have for their slots. -/
def typesOf (reserved : List Text) (table : Table Text Shape) : Types where
  declaration node := List.zipWith (slot table.keys) (typings node)
    ((declarationFact reserved table node).declarators.map DeclaratorFact.typing)
  function node :=
    match node with
    | .functionDeclaration _ _ params _ result =>
      { params := List.zipWith (slot table.keys) (params.map fun p => typingOf p.bound)
          ((functionFact node).params.map Prod.snd)
        result := slot table.keys result (functionFact node).result }
    | _ => ⟨[], .absent⟩

/-- Whether all variables and parameters of a declaration are names. -/
def bindsNames : Node → Bool
  | .variableDeclaration _ _ declared => declared.all declaresName
  | .functionDeclaration _ _ params _ _ => params.all bindsName
  | _ => true

theorem slotTypes_eq {known : List Text} {wrongName : Location → Text → Text → Mismatch}
    {identifiers : List Node} {facts : List (Text × Shape)}
    (each : List.Forall₂ (fun identifier fact =>
      identifier.name = fact.1 ∧ fact.2.Annotates known) identifiers facts) :
    slotTypes known wrongName identifiers facts =
      .ok (List.zipWith (slot known) (identifiers.map typingOf) (facts.map Prod.snd)) := by
  induction each with
  | nil => rfl
  | @cons identifier fact identifiers facts both _ ih =>
    obtain ⟨name, shape⟩ := fact
    obtain ⟨sameName, annotates⟩ := both
    simp only [slotTypes, ih, slotType_eq annotates]
    rw [if_neg (by simpa using sameName)]
    rfl

theorem filter_isDeclarator {declared : List Node} (binds : declared.all declaresName = true) :
    declared.filter Node.isDeclarator = declared := by
  rw [List.filter_eq_self]
  intro d mem
  obtain ⟨loc, nameLoc, wrapped, name, typing, initializer, rfl⟩ :=
    declaresName_iff.mp (List.all_eq_true.mp binds d mem)
  rfl

section Declarations

variable {reserved : List Text} {table : Table Text Shape} {node : Node}

/-- A variable declaration agrees with its fact. -/
theorem declarationTypes_eq (binds : bindsNames node = true) (declares : isDeclaration node = true)
    (annotates : ∀ fact ∈ (declarationFact reserved table node).declarators,
      fact.typing.Annotates table.keys) :
    declarationTypes table.keys node (declarationFact reserved table node) =
      .ok ((typesOf reserved table).declaration node) := by
  cases node with
  | variableDeclaration loc keyword declared =>
    simp only [declarationFact, filter_isDeclarator binds] at annotates
    have each : List.Forall₂ (fun identifier fact =>
        identifier.name = fact.1 ∧ fact.2.Annotates table.keys) (declared.map declaredBy)
        ((declared.map (Facts.declaratorFact reserved table)).map fun d => (d.name, d.typing)) := by
      simp only [List.map_map, List.forall₂_map_left_iff, List.forall₂_map_right_iff,
        List.forall₂_same]
      intro d mem
      obtain ⟨declLoc, nameLoc, wrapped, name, typing, initializer, rfl⟩ :=
        declaresName_iff.mp (List.all_eq_true.mp binds d mem)
      exact ⟨rfl, annotates _ (List.mem_map_of_mem mem)⟩
    have counted : ¬ (keyword ≠ keyword ∨
        declared.length ≠ (declared.map (Facts.declaratorFact reserved table)).length) := by simp
    simp only [declarationTypes, declarationFact, filter_isDeclarator binds, if_neg counted]
    rw [slotTypes_eq each]
    simp only [typesOf, typings, declarationFact, filter_isDeclarator binds, List.map_map]
    rfl
  | _ => cases declares

/-- A function declaration agrees with its fact. -/
theorem functionTypes_eq (declares : isFunction node = true) :
    functionTypes table.keys node (functionFact node) =
      .ok ((typesOf reserved table).function node) := by
  cases node with
  | functionDeclaration loc name params body result =>
    obtain ⟨concreteParams, concreteResult⟩ :=
      Facts.concrete_functionFact (.functionDeclaration loc name params body result)
    have each : List.Forall₂ (fun identifier fact =>
        identifier.name = fact.1 ∧ fact.2.Annotates table.keys) (params.map Node.bound)
        (functionFact (.functionDeclaration loc name params body result)).params := by
      simp only [functionFact, List.map_map, List.forall₂_map_left_iff,
        List.forall₂_map_right_iff, List.forall₂_same] at concreteParams ⊢
      exact fun p mem => ⟨rfl, .concrete (concreteParams _ (List.mem_map_of_mem mem))⟩
    have counted : ¬ (name.functionName ≠
          (functionFact (.functionDeclaration loc name params body result)).name ∨
        params.length ≠
          (functionFact (.functionDeclaration loc name params body result)).params.length) := by
      simp [functionFact]
    simp only [functionTypes, if_neg counted, slotTypes_eq each,
      slotType_eq (.concrete concreteResult), typesOf, List.map_map]
    rfl
  | _ => cases declares

end Declarations

theorem pairwise_map {Fact Out : Type} {work : Node → Fact → Except Mismatch Out}
    {fact : Node → Fact} {out : Node → Out} {nodes : List Node}
    (each : ∀ node ∈ nodes, work node (fact node) = .ok (out node)) :
    pairwise work nodes (nodes.map fact) = .ok (nodes.map out) := by
  induction nodes with
  | nil => rfl
  | cons node rest ih =>
    obtain ⟨here, others⟩ := List.forall_mem_cons.mp each
    simp only [List.map_cons, pairwise, here, ih others]
    rfl

variable {program : Node} {record : Record}

/-- The record of a program plans the types of its facts. -/
theorem plan_eq (isRecord : IsRecordOf program record)
    (binds : ∀ node ∈ program.walk, bindsNames node = true) :
    plan record.interfaces.keys record program =
      .ok (planOf (typesOf (Facts.reserved program) record.interfaces) program.walk ⟨[], []⟩) := by
  have declarations : pairwise (declarationTypes record.interfaces.keys)
      (program.walk.filter isDeclaration) record.declarations =
      .ok ((program.walk.filter isDeclaration).map
        (typesOf (Facts.reserved program) record.interfaces).declaration) := by
    rw [isRecord.declarations_eq]
    refine pairwise_map fun node mem => ?_
    obtain ⟨visited, declares⟩ := List.mem_filter.mp mem
    exact declarationTypes_eq (binds node visited) declares fun fact listed =>
      isRecord.annotates visited declares listed
  have functions : pairwise (functionTypes record.interfaces.keys)
      (program.walk.filter isFunction) record.functions =
      .ok ((program.walk.filter isFunction).map
        (typesOf (Facts.reserved program) record.interfaces).function) := by
    rw [isRecord.functions]
    exact pairwise_map fun node mem => functionTypes_eq (List.mem_filter.mp mem).2
  have declarationCount : record.declarations.length =
      (program.walk.filter isDeclaration).length := by
    rw [isRecord.declarations_eq, List.length_map]
  have functionCount : record.functions.length = (program.walk.filter isFunction).length := by
    rw [isRecord.functions, List.length_map]
  simp only [plan, checkCount, if_pos declarationCount, if_pos functionCount, declarations,
    functions, planOf, List.append_nil]
  rfl

/-- An interface declaration that is created for an entry of the table. -/
def DeclaresEntry (known : List Text) (entry : Text × Shape) (node : Node) : Prop :=
  Shape.interfaceSyntax known entry.1 (some entry.2) = .ok node ∧
    ∃ members, node = .interfaceDeclaration .synthetic
        (.identifier .synthetic false entry.1 .absent) members ∧
      ∀ member ∈ members, Created known .signature member

/-- The declarations of the interfaces of a table. -/
theorem interfaces_eq (known : List Text) {table : Table Text Shape}
    (literal : ∀ entry ∈ table, ∃ node : Node, node.isObject = true ∧
      entry.2 = Inference.plain [] node) :
    ∃ created, interfaces known (table.map fun (name, shape) => (name, some shape)) = .ok created ∧
      List.Forall₂ (DeclaresEntry known) table created := by
  induction table with
  | nil => exact ⟨[], rfl, .nil⟩
  | cons entry rest ih =>
    obtain ⟨⟨node, isObject, shapeEq⟩, others⟩ := List.forall_mem_cons.mp literal
    obtain ⟨created, writtenRest, each⟩ := ih others
    have concrete : entry.2.Concrete := shapeEq ▸ @Inference.concrete_plain [] nofun node
    obtain ⟨members, written, createdMembers⟩ := concrete.interfaceSyntax
      (shapeEq ▸ Inference.isObject_plain isObject) known entry.1
    refine ⟨_ :: created, ?_, .cons ⟨written, members, rfl, createdMembers⟩ each⟩
    simp only [List.map_cons, interfaces, written, writtenRest]
    rfl

theorem keys_map_some (table : Table Text Shape) :
    Table.keys (table.map fun (name, shape) => (name, some shape)) = table.keys := by
  simp only [Table.keys, List.map_map]
  rfl

/-- The record of a program annotates it with the types of its facts. -/
theorem annotate_eq (isRecord : IsRecordOf program record)
    (binds : ∀ node ∈ program.walk, bindsNames node = true) :
    ∃ created, annotate record program =
        .ok (prepend created
          (refill (typesOf (Facts.reserved program) record.interfaces) program)) ∧
      List.Forall₂ (DeclaresEntry record.interfaces.keys) record.interfaces created := by
  obtain ⟨created, written, each⟩ :=
    interfaces_eq record.interfaces.keys isRecord.interfaces.literal
  refine ⟨created, ?_, each⟩
  simp only [annotate, annotateWith, keys_map_some, plan_eq isRecord binds, written]
  rw [Node.walk_eq_preorder]
  change Except.ok (prepend created (fill program _).1) = _
  rw [fill_planOf]

/-- What a slot for a type holds in a tree that was read. -/
def IsSlot (type : Node) : Prop :=
  type = .absent ∨ TypeTree (Lexeme.isWordText · = true) Grammar.SpelledKey .type type

theorem IsSlot.every {type : Node} (slot : IsSlot type) :
    type.Every (Grammar.isTypePart · = true) := by
  rcases slot with rfl | tree
  · exact .mk rfl nofun
  · exact tree.every

/-- A declaration that binds names, with type syntax in its slots. -/
structure Binds (node : Node) : Prop where
  names : bindsNames node = true
  types : ∀ type ∈ typings node, IsSlot type

section Read

variable {R : Prop} {form : Grammar.Form} {node : Node}

theorem binds_of_isTypePart (part : Grammar.isTypePart node = true) : Binds node := by
  cases node <;> first | exact ⟨rfl, nofun⟩ | cases part

theorem binds_wrap (binds : Binds node) : Binds node.wrap := by
  cases node <;> exact ⟨binds.names, binds.types⟩

theorem isName_of_binder {binder : Node} (bound : Grammar.Binder (.source R) binder) :
    isName binder = true ∧ IsSlot (typingOf binder) := by
  cases bound with
  | plain => exact ⟨rfl, .inl rfl⟩
  | typed annotated => exact ⟨rfl, .inr annotated.2⟩

theorem binds_declarator {d : Node} (fits : Fits (.source R) .declarator d) :
    declaresName d = true ∧ IsSlot (typingOf (declaredBy d)) := by
  cases fits with
  | declarator bound => exact isName_of_binder bound

theorem binds_param {p : Node} (fits : Fits (.source R) .param p) :
    bindsName p = true ∧ IsSlot (typingOf p.bound) := by
  cases fits with
  | param bound =>
    have named := isName_of_binder bound
    cases bound <;> exact named
  | defaultParam bound => exact isName_of_binder bound

/-- In a tree that was read, all variables and parameters of declarations are names with types. -/
theorem binds_of_fits (fits : Fits (.source R) form node) : node.Every Binds := by
  refine fits.every (.of_isTypePart (fun _ => binds_of_isTypePart) ?_) ?_
  · rintro _ (_ | _ | _) <;> exact ⟨rfl, nofun⟩
  · intro form node fits
    induction fits with
    | declaration word some each =>
      exact ⟨List.all_eq_true.mpr fun d mem => (binds_declarator (each d mem)).1,
        List.forall_mem_map.mpr fun d mem => (binds_declarator (each d mem)).2⟩
    | declaredFunction named each block typed =>
      refine ⟨List.all_eq_true.mpr fun p mem => (binds_param (each p mem)).1,
        List.forall_mem_append.mpr ⟨List.forall_mem_map.mpr fun p mem =>
          (binds_param (each p mem)).2, List.forall_mem_singleton.mpr ?_⟩⟩
      cases typed with
      | none => exact .inl rfl
      | some result => exact .inr result
    | wrapped inner unwrapped ih => exact binds_wrap ih
    | binary level => cases level <;> exact ⟨rfl, nofun⟩
    | param bound => cases bound <;> exact ⟨rfl, nofun⟩
    | interface allowed => cases allowed; exact ⟨rfl, nofun⟩
    | given _ ih | declaredVariables _ ih | initializerVariables _ ih
    | initializerExpression _ ih | declared _ ih | blockStatement _ ih => exact ih
    | _ => exact ⟨rfl, nofun⟩

end Read

/-- What a slot holds in the end: created type syntax if it was empty, and else what it held. -/
def Filled (known : List Text) (old new : Node) : Prop :=
  (old.isAbsent = true ∧ Created known .single new) ∨ (old.isAbsent = false ∧ new = old)

/-- The types of facts fill the slots of their declarations. -/
theorem puts_typesOf (isRecord : IsRecordOf program record) {node : Node}
    (visited : node ∈ program.walk) (binds : bindsNames node = true) :
    Puts (typesOf (Facts.reserved program) record.interfaces) (Filled record.interfaces.keys)
      (Filled record.interfaces.keys) node := by
  cases node with
  | variableDeclaration loc keyword declared =>
    have annotates fact := @isRecord.annotates _ _ _ visited rfl fact
    simp only [declarationFact, filter_isDeclarator binds] at annotates
    simp only [Puts, Pairs, typesOf, typings, declarationFact, filter_isDeclarator binds,
      List.map_map, List.zipWith_map, List.zipWith_self, List.forall₂_map_right_iff,
      List.forall₂_same]
    intro d mem
    exact ⟨List.all_eq_true.mp binds d mem, slot_cases (annotates _ (List.mem_map_of_mem mem))⟩
  | functionDeclaration loc name params body result =>
    obtain ⟨concreteParams, concreteResult⟩ :=
      Facts.concrete_functionFact (.functionDeclaration loc name params body result)
    refine ⟨?_, slot_cases (.concrete concreteResult)⟩
    simp only [functionFact, List.map_map] at concreteParams
    simp only [Pairs, typesOf, functionFact, List.map_map, List.zipWith_map_left,
      List.zipWith_map_right, List.zipWith_self, List.forall₂_map_right_iff, List.forall₂_same]
    intro p mem
    exact ⟨List.all_eq_true.mp binds p mem,
      slot_cases (.concrete (concreteParams _ (List.mem_map_of_mem mem)))⟩
  | _ => trivial

/-- Type syntax before and after. -/
def BothTypes (old new : Node) : Prop :=
  old.Every (Grammar.isTypePart · = true) ∧ new.Every (Grammar.isTypePart · = true)

/-- What is put into a slot stands beside what the slot held. -/
theorem Puts.beside {types : Types} {P Q : Node → Node → Prop} {node : Node} (binds : Binds node)
    (puts : Puts types P Q node) :
    Puts types (fun old new => IsSlot old ∧ P old new) (fun old new => IsSlot old ∧ Q old new)
      node := by
  cases node with
  | variableDeclaration loc keyword declared =>
    have slots := List.forall_mem_map.mp binds.types
    exact ((List.forall₂_and_left _ _).mpr ⟨slots, puts⟩).imp fun d type all =>
      ⟨all.2.1, all.1, all.2.2⟩
  | functionDeclaration loc name params body result =>
    obtain ⟨paramSlots, resultSlot⟩ := List.forall_mem_append.mp binds.types
    have slots := List.forall_mem_map.mp paramSlots
    exact ⟨((List.forall₂_and_left _ _).mpr ⟨slots, puts.1⟩).imp fun p type all =>
      ⟨all.2.1, all.1, all.2.2⟩, resultSlot result List.mem_cons_self, puts.2⟩
  | _ => trivial

/-- The slots of a declaration hold type syntax before and after they are filled. -/
theorem Puts.bothTypes {types : Types} {known : List Text} {node : Node} (binds : Binds node)
    (puts : Puts types (Filled known) (Filled known) node) :
    Puts types BothTypes BothTypes node := by
  have both (old new : Node) (filled : IsSlot old ∧ Filled known old new) : BothTypes old new := by
    obtain ⟨slot, ⟨-, created⟩ | ⟨-, rfl⟩⟩ := filled
    · exact ⟨slot.every, created.typeTree.every⟩
    · exact ⟨slot.every, slot.every⟩
  exact (puts.beside binds).mono _ both both

theorem isDeclaration_eq_false (node : Node)
    (part : Grammar.isTypePart node = true ∨ isBinding node = true) :
    isDeclaration node = false := by
  cases node with
  | variableDeclaration => rcases part with part | part <;> cases part
  | _ => rfl

theorem isFunction_eq_false (node : Node)
    (part : Grammar.isTypePart node = true ∨ isBinding node = true) : isFunction node = false := by
  cases node with
  | functionDeclaration => rcases part with part | part <;> cases part
  | _ => rfl

/-- The declarations of a kind in a tree that is given types, each with the types it is given. -/
theorem map_typings_refill {types : Types} {root : Node}
    (every : root.Every (Puts types BothTypes BothTypes)) (isKind : Node → Bool)
    (other : ∀ node, Grammar.isTypePart node = true ∨ isBinding node = true → isKind node = false)
    (kept : ∀ node, isKind (refill types node) = isKind node) {new : Node → List Node}
    (given : ∀ node, isKind node = true → Puts types BothTypes BothTypes node →
      typings (refill types node) = new node) :
    ((refill types root).preorder.filter isKind).map typings =
      (root.preorder.filter isKind).map new := by
  have none (f : Node → List Node) (node : Node)
      (part : Grammar.isTypePart node = true ∨ isBinding node = true) :
      (if isKind node = true then some (f node) else none) = none := by
    rw [if_neg (by simp [other node part])]
  rw [map_filter_preorder, map_filter_preorder]
  refine finds_refill (fun node binding => none new node (.inr binding))
    (fun node binding => none typings node (.inr binding)) (every.imp fun node puts => ⟨?_, ?_⟩)
  · rw [kept]
    cases isThis : isKind node with
    | true => simp only [given node isThis puts]
    | false => rfl
  · have same (old new' : Node) (both : BothTypes old new') :
        finds (fun node => if isKind node = true then some (typings node) else .none) new' =
          finds (fun node => if isKind node = true then some (new node) else .none) old := by
      rw [finds_eq_nil (both.1.imp fun node part => none new node (.inl part)),
        finds_eq_nil (both.2.imp fun node part => none typings node (.inl part))]
    exact puts.mono types same same

theorem map_ok_slots {known : List Text} (typings : List Node) {shapes : List Shape}
    (annotates : ∀ shape ∈ shapes, shape.Annotates known) :
    (List.zipWith (slot known) typings shapes).map .ok =
      List.zipWith (slotType known) typings shapes := by
  induction typings generalizing shapes with
  | nil => rfl
  | cons typing typings ih =>
    cases shapes with
    | nil => rfl
    | cons shape shapes =>
      obtain ⟨here, others⟩ := List.forall_mem_cons.mp annotates
      simp only [List.zipWith_cons_cons, List.map_cons, ih others, slotType_eq here]

private theorem map_ok_typings (nodes : List Node) :
    nodes.map (fun node => (typings node).map (Except.ok (ε := Mismatch))) =
      (nodes.map typings).map (List.map .ok) := by
  rw [List.map_map]
  rfl

/-- A function declaration has one slot for each shape of its fact. -/
theorem map_ok_function {reserved : List Text} {table : Table Text Shape} {node : Node}
    (declares : isFunction node = true) :
    (((typesOf reserved table).function node).params ++
        [((typesOf reserved table).function node).result]).map .ok =
      List.zipWith (slotType table.keys) (typings node)
        ((functionFact node).params.map Prod.snd ++ [(functionFact node).result]) := by
  obtain ⟨concreteParams, concreteResult⟩ := Facts.concrete_functionFact node
  have annotates : ∀ shape ∈ (functionFact node).params.map Prod.snd,
      shape.Annotates table.keys :=
    List.forall_mem_map.mpr fun param mem => .concrete (concreteParams param mem)
  cases node with
  | functionDeclaration loc name params body result =>
    rw [typings, List.zipWith_append (by simp [functionFact]), List.map_append,
      ← map_ok_slots _ annotates]
    simp only [typesOf, List.map_cons, List.map_nil, List.zipWith_cons_cons, List.zipWith_nil_left,
      slotType_eq (.concrete concreteResult)]
  | _ => cases declares

/-- The declarations of the annotated program, behind the interfaces in front. -/
theorem filter_walk_refill {types : Types} {isKind : Node → Bool} {loc : Location}
    {body : List Node} (other : ∀ body, isKind (.program loc body) = false) :
    ((body.map (refill types)).flatMap Node.walk).filter isKind =
      (refill types (.program loc body)).preorder.filter isKind := by
  have walks : Node.walk = Node.preorder := funext Node.walk_eq_preorder
  rw [refill_of_other types rfl rfl, walks, Node.preorder_eq]
  change _ = List.filter isKind (.program loc (body.map (refill types)) ::
    (body.map (refill types)).flatMap Node.preorder)
  rw [List.filter_cons_of_neg (by simp [other])]

/-- What is known of a program that was read, of its record and of the interfaces in front. -/
structure Glossed (program : Node) (record : Record) (created : List Node) : Prop where
  isRecord : IsRecordOf program record
  binds : program.Every Binds
  puts : program.Every (Puts (typesOf (Facts.reserved program) record.interfaces)
    (Filled record.interfaces.keys) (Filled record.interfaces.keys))
  declares : List.Forall₂ (DeclaresEntry record.interfaces.keys) record.interfaces created
  annotated : annotate record program = .ok (prepend created
    (refill (typesOf (Facts.reserved program) record.interfaces) program))

/-- Every program that is read is annotated by its record. -/
theorem glossed_of_binds {cache : Cache} (sound : cache.Sound) (binds : program.Every Binds) :
    ∃ created, Glossed program (Facts.collect program cache).1 created := by
  have isRecord := Facts.collect_lists program sound
  have bound := Node.walk_of_every binds
  obtain ⟨created, annotated, declares⟩ :=
    annotate_eq isRecord fun node visited => (bound node visited).names
  refine ⟨created, isRecord, binds, ?_, declares, annotated⟩
  exact Node.every_of_walk trivial program fun node visited =>
    puts_typesOf isRecord visited (bound node visited).names

namespace Glossed

variable {created : List Node} (glossed : Glossed program record created)

include glossed

theorem bothTypes : program.Every (Puts (typesOf (Facts.reserved program) record.interfaces)
    BothTypes BothTypes) :=
  Node.every_of_walk trivial program fun node visited =>
    (Node.walk_of_every glossed.puts node visited).bothTypes
      (Node.walk_of_every glossed.binds node visited)

/-- The types of the variable declarations of the annotated program. -/
theorem declarationTypes_eq :
    ((refill (typesOf (Facts.reserved program) record.interfaces) program).preorder.filter
        isDeclaration).map (fun node => (typings node).map .ok) =
      List.zipWith (fun node fact => List.zipWith (slotType record.interfaces.keys) (typings node)
        (fact.declarators.map DeclaratorFact.typing))
        (program.walk.filter isDeclaration) record.declarations := by
  have given := map_typings_refill glossed.bothTypes isDeclaration isDeclaration_eq_false
    (isDeclaration_refill _) fun node declares puts => typings_refill_declaration declares puts
  rw [map_ok_typings, given, glossed.isRecord.declarations_eq,
    List.zipWith_map_right, List.zipWith_self, List.map_map, Node.walk_eq_preorder]
  refine List.map_congr_left fun node mem => map_ok_slots _ ?_
  obtain ⟨visited, declares⟩ := List.mem_filter.mp mem
  rw [← Node.walk_eq_preorder] at visited
  exact List.forall_mem_map.mpr fun fact listed =>
    glossed.isRecord.annotates visited declares listed

/-- The types of the function declarations of the annotated program. -/
theorem functionTypes_eq :
    ((refill (typesOf (Facts.reserved program) record.interfaces) program).preorder.filter
        isFunction).map (fun node => (typings node).map .ok) =
      List.zipWith (fun node fact => List.zipWith (slotType record.interfaces.keys) (typings node)
        (fact.params.map Prod.snd ++ [fact.result]))
        (program.walk.filter isFunction) record.functions := by
  have given := map_typings_refill glossed.bothTypes isFunction isFunction_eq_false
    (isFunction_refill _) fun node declares puts => typings_refill_function declares puts
  rw [map_ok_typings, given, glossed.isRecord.functions,
    List.zipWith_map_right, List.zipWith_self, List.map_map, Node.walk_eq_preorder]
  exact List.map_congr_left fun node mem => map_ok_function (List.mem_filter.mp mem).2

end Glossed

/-- Annotating a program fills its empty slots and nothing else. In front comes one declaration for
each interface of the table. Behind it stands the program, unchanged but for the types of its
variables and of its declared functions. Each of these slots holds what it held before, or else the
type syntax of the shape that the record lists for it, where the record lists the declarations in
the order of a walk. -/
theorem annotate_fills (dialect : Dialect) (source : Text) (history : List Inference.Request)
    {program : Node} (read : Source.read dialect source = .ok program) :
    let record := (Facts.collect program (Inference.Request.serveAll history .empty).2).1
    let known := record.interfaces.keys
    ∃ loc body created filled, program = .program loc body ∧
      annotate record program = .ok (.program loc (created ++ filled)) ∧
      List.Forall₂ (fun entry node => Shape.interfaceSyntax known entry.1 (some entry.2) = .ok node)
        record.interfaces created ∧
      filled.map bare = body.map bare ∧
      record.declarations = (program.walk.filter isDeclaration).map
        (declarationFact (Facts.reserved program) record.interfaces) ∧
      record.functions = (program.walk.filter isFunction).map functionFact ∧
      ((filled.flatMap Node.walk).filter isDeclaration).map (fun node => (typings node).map .ok) =
        List.zipWith (fun node fact => List.zipWith (slotType known) (typings node)
          (fact.declarators.map DeclaratorFact.typing))
          (program.walk.filter isDeclaration) record.declarations ∧
      ((filled.flatMap Node.walk).filter isFunction).map (fun node => (typings node).map .ok) =
        List.zipWith (fun node fact => List.zipWith (slotType known) (typings node)
          (fact.params.map Prod.snd ++ [fact.result]))
          (program.walk.filter isFunction) record.functions := by
  intro record known
  have sound := (Inference.Request.serveAll_sound history Cache.sound_empty).2
  obtain ⟨ts, reads⟩ := Source.reads_of_read read
  obtain ⟨created, glossed⟩ := glossed_of_binds sound (binds_of_fits reads.fits)
  obtain ⟨loc, body, rfl⟩ : ∃ loc body, program = .program loc body := by
    cases reads.fits
    exact ⟨_, _, rfl⟩
  refine ⟨loc, body, created, body.map (refill (typesOf (Facts.reserved (.program loc body))
    record.interfaces)), rfl,
    ?_, glossed.declares.imp fun _ _ declares => declares.1, ?_,
    glossed.isRecord.declarations_eq, glossed.isRecord.functions, ?_, ?_⟩
  · rw [glossed.annotated, refill_of_other _ rfl rfl]
    rfl
  · rw [List.map_map]
    refine List.map_congr_left fun s mem =>
      bare_refill ((glossed.puts.each s mem).imp fun _ puts => ?_)
    exact puts.mono _ (fun _ _ _ => trivial) fun _ _ _ => trivial
  · rw [filter_walk_refill fun _ => rfl]
    exact glossed.declarationTypes_eq
  · rw [filter_walk_refill fun _ => rfl]
    exact glossed.functionTypes_eq

theorem annotate_fills_array :
    ∃ program, Source.read .typescript "let x=[1]" = .ok program ∧
      ∃ loc body created filled, program = .program loc body ∧
        annotate (Facts.collect program .empty).1 program =
          .ok (.program loc (created ++ filled)) ∧
        filled.map bare = body.map bare := by
  obtain ⟨program, read⟩ : ∃ program, Source.read .typescript "let x=[1]" = .ok program := ⟨_, rfl⟩
  obtain ⟨loc, body, created, filled, isProgram, annotated, -, same, -⟩ :=
    annotate_fills .typescript "let x=[1]" [] read
  exact ⟨program, read, loc, body, created, filled, isProgram, annotated, same⟩

end Gloss

end TypeGloss
