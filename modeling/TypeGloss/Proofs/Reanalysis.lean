import TypeGloss.Proofs.Fingerprint
import TypeGloss.Proofs.Gloss

/-!
# The facts of an annotated program

Annotating a program leaves its facts as they are. A record is described by questions that are put
to the nodes of a tree; they concern code only, so no type in the tree has an answer, and the tree
with types put into it gives the same answers in the same order.
-/

namespace TypeGloss

open Inference (plain)

theorem Node.Every.nested {p : Node → Prop} {node : Node} (every : node.Every p) :
    node.Every (Node.Every p) := by
  induction every with
  | mk here each ih => exact .mk (.mk here each) ih

/-- The fact without what its variables are annotated with. -/
def DeclarationFact.outline (fact : DeclarationFact) : DeclarationFact :=
  { fact with declarators := fact.declarators.map fun d => { d with typing := .any } }

namespace Facts

/-- The fact about a return statement. -/
def returnFact? : Node → Option ReturnFact
  | .returnStatement _ argument =>
    some (if argument.isAbsent then ⟨"none", .void⟩ else ⟨argument.kind, plain [] argument⟩)
  | _ => none

/-- The fact about a property. -/
def propertyFact? : Node → Option PropertyFact
  | .property _ key value _ => some ⟨key.propertyKey, value.kind, plain [] value⟩
  | _ => none

/-- The fact about an object literal. -/
def objectFact? : Node → Option ObjectFact
  | .object loc wrapped members =>
    some ⟨members.filterMap propertyFact?, plain [] (.object loc wrapped members)⟩
  | _ => none

/-- The fact about an array literal. -/
def arrayFact? : Node → Option ArrayFact
  | .array loc wrapped elements =>
    some ⟨elements.map Node.kind, plain [] (.array loc wrapped elements)⟩
  | _ => none

/-- The fact about a declarator, apart from what it is annotated with. -/
def declaratorOutline? : Node → Option DeclaratorFact
  | .declarator _ name initializer =>
    some ⟨name.name, initializer.kind, plain [] initializer, .any⟩
  | _ => none

/-- The fact about a variable declaration, apart from what its variables are annotated with. -/
def declarationOutline? : Node → Option DeclarationFact
  | .variableDeclaration _ keyword declared =>
    some ⟨keyword, declared.filterMap declaratorOutline?⟩
  | _ => none

/-- A state whose record lists the return statements and literals among the nodes that were
visited. -/
structure Literals (visited : List Node) (state : State) : Prop where
  sound : state.cache.Sound
  returns : state.record.returns = visited.filterMap returnFact?
  objects : state.record.objects = visited.filterMap objectFact?
  arrays : state.record.arrays = visited.filterMap arrayFact?

theorem properties_spec (members : List Node) {cache : Cache} (sound : cache.Sound) :
    (properties members cache).1 = members.filterMap propertyFact? ∧
      (properties members cache).2.Sound := by
  induction members generalizing cache with
  | nil => exact ⟨rfl, sound⟩
  | cons member rest ih =>
    cases member with
    | property loc key value shorthand =>
      have gives := Inference.typeOf_gives [] value sound
      obtain ⟨factsEq, sound⟩ := ih gives.sound
      refine ⟨?_, sound⟩
      simp only [properties, gives.shape_eq, factsEq, List.filterMap_cons, propertyFact?]
    | _ => exact ih sound

section Visit

variable (reserved : List Text) {visited : List Node} {state : State}

/-- Adding variables adds no return statement and no literal. -/
theorem Literals.declarators (literals : Literals visited state) (declared : List Node) :
    Literals visited (declarators reserved declared state).2 := by
  induction declared generalizing state with
  | nil => exact literals
  | cons node rest ih =>
    cases node with
    | declarator loc name initializer =>
      have gives := Inference.typeOf_gives [] initializer literals.sound
      exact ih ⟨gives.sound, literals.returns, literals.objects, literals.arrays⟩
    | _ => exact ih literals

theorem Literals.concat (literals : Literals visited state) {node : Node} {after : State}
    (sound : after.cache.Sound)
    (returns : after.record.returns = state.record.returns ++ (returnFact? node).toList)
    (objects : after.record.objects = state.record.objects ++ (objectFact? node).toList)
    (arrays : after.record.arrays = state.record.arrays ++ (arrayFact? node).toList) :
    Literals (visited ++ [node]) after := by
  have answer {α : Type} (q : Node → Option α) :
      (visited ++ [node]).filterMap q = visited.filterMap q ++ (q node).toList := by
    rw [List.filterMap_append, List.filterMap_cons]
    cases q node <;> rfl
  refine ⟨sound, ?_, ?_, ?_⟩
  · rw [returns, literals.returns, answer]
  · rw [objects, literals.objects, answer]
  · rw [arrays, literals.arrays, answer]

/-- A node that is visited adds its fact. -/
theorem Literals.visit (literals : Literals visited state) (node : Node) :
    Literals (visited ++ [node]) (visit reserved state node) := by
  have nothing {α : Type} (facts : List α) : facts = facts ++ [] := (List.append_nil facts).symm
  have sound := literals.sound
  cases node with
  | variableDeclaration loc keyword declared =>
    have after := literals.declarators reserved declared
    exact after.concat after.sound (nothing _) (nothing _) (nothing _)
  | functionDeclaration loc name params body type =>
    exact literals.concat (function_spec loc name params body type sound).2 (nothing _) (nothing _)
      (nothing _)
  | returnStatement loc argument =>
    have gives := Inference.typeOf_gives [] argument sound
    by_cases absent : argument.isAbsent = true
    · simp only [Facts.visit, if_pos absent]
      refine literals.concat sound ?_ (nothing _) (nothing _)
      simp only [returnFact?, if_pos absent, Option.toList_some]
    · simp only [Facts.visit, if_neg absent]
      refine literals.concat gives.sound ?_ (nothing _) (nothing _)
      simp only [returnFact?, if_neg absent, gives.shape_eq, Option.toList_some]
  | object loc wrapped members =>
    obtain ⟨factsEq, sound⟩ := properties_spec members sound
    have gives := Inference.typeOf_gives [] (.object loc wrapped members) sound
    refine literals.concat gives.sound (nothing _) ?_ (nothing _)
    simp only [Facts.visit, objectFact?, factsEq, gives.shape_eq, Option.toList_some]
  | array loc wrapped elements =>
    have gives := Inference.typeOf_gives [] (.array loc wrapped elements) sound
    refine literals.concat gives.sound (nothing _) (nothing _) ?_
    simp only [Facts.visit, arrayFact?, gives.shape_eq, Option.toList_some]
  | _ => exact literals.concat sound (nothing _) (nothing _) (nothing _)

end Visit

/-- What the record of a program lists of its return statements and literals. -/
theorem collect_literals (program : Node) {cache : Cache} (sound : cache.Sound) :
    Literals program.walk ⟨(collect program cache).1, (collect program cache).2⟩ := by
  have literals (visited : List Node) : Literals visited
      (visited.foldl (Facts.visit (reserved program)) { cache }) := by
    induction visited using List.reverseRecOn with
    | nil => exact ⟨sound, rfl, rfl, rfl⟩
    | append_singleton visited node ih =>
      rw [List.foldl_concat]
      exact ih.visit _ node
  exact literals program.walk

theorem filterMap_declaratorOutline? (reserved : List Text) (table : Table Text Shape)
    (declared : List Node) :
    ((declared.filter Node.isDeclarator).map (declaratorFact reserved table)).map
        (fun d => { d with typing := .any }) = declared.filterMap declaratorOutline? := by
  induction declared with
  | nil => rfl
  | cons node rest ih =>
    cases node with
    | declarator loc name initializer => exact congrArg _ ih
    | _ => exact ih

/-- The outlines of the facts about variable declarations do not depend on the interfaces. -/
theorem IsRecordOf.outlines_eq {program : Node} {record : Record}
    (isRecord : IsRecordOf program record) :
    record.declarations.map DeclarationFact.outline =
      program.walk.filterMap declarationOutline? := by
  rw [isRecord.declarations_eq, List.map_map, ← List.filterMap_eq_map, List.filterMap_filter]
  refine List.filterMap_congr fun node _ => ?_
  cases node with
  | variableDeclaration loc keyword declared =>
    rw [declarationOutline?, ← filterMap_declaratorOutline? (Facts.reserved program)
      record.interfaces]
    rfl
  | _ => rfl

section Kinds

variable {node : Node}

theorem returnFact?_of_kindName (other : node.kindName ≠ "ReturnStatement") :
    returnFact? node = none := by
  cases node <;> simp_all [Node.kindName, returnFact?]

theorem propertyFact?_of_kindName (other : node.kindName ≠ "ObjectProperty") :
    propertyFact? node = none := by
  cases node <;> simp_all [Node.kindName, propertyFact?]

theorem objectFact?_of_kindName (other : node.kindName ≠ "ObjectExpression") :
    objectFact? node = none := by
  cases node <;> simp_all [Node.kindName, objectFact?]

theorem arrayFact?_of_kindName (other : node.kindName ≠ "ArrayExpression") :
    arrayFact? node = none := by
  cases node <;> simp_all [Node.kindName, arrayFact?]

theorem declarationOutline?_of_kindName (other : node.kindName ≠ "VariableDeclaration") :
    declarationOutline? node = none := by
  cases node <;> simp_all [Node.kindName, declarationOutline?]

end Kinds

section Kept

variable {f : Node → Node} (keeps : Node.Keeps f)

include keeps

theorem plain_kept (node : Node) : plain [] (f node) = plain [] node :=
  keeps.plain_map (fun _ => rfl) node

theorem returnFact?_kept (node : Node) : returnFact? (f node) = returnFact? node := by
  rcases Node.isReturn_or node with ⟨loc, argument, rfl⟩ | other
  · obtain ⟨_, eq⟩ := keeps.returnStatement loc argument
    rw [eq, returnFact?, returnFact?, keeps.isAbsent, keeps.kind, plain_kept keeps]
  · rw [returnFact?_of_kindName other, returnFact?_of_kindName (by rwa [keeps.kindName])]

theorem propertyFact?_kept (node : Node) : propertyFact? (f node) = propertyFact? node := by
  rcases Node.isProperty_or node with ⟨loc, key, value, shorthand, rfl⟩ | other
  · obtain ⟨_, eq⟩ := keeps.property loc key value shorthand
    rw [eq, propertyFact?, propertyFact?, keeps.propertyKey, keeps.kind, plain_kept keeps]
  · rw [propertyFact?_of_kindName other, propertyFact?_of_kindName (by rwa [keeps.kindName])]

theorem objectFact?_kept (node : Node) : objectFact? (f node) = objectFact? node := by
  by_cases isObject : node.kindName = "ObjectExpression"
  · cases node with
    | object loc wrapped members =>
      have shape := plain_kept keeps (.object loc wrapped members)
      obtain ⟨_, _, eq⟩ := keeps.object loc wrapped members
      rw [eq] at shape ⊢
      rw [objectFact?, objectFact?, shape, List.filterMap_map]
      simp only [Function.comp_def, propertyFact?_kept keeps]
    | _ => simp [Node.kindName] at isObject
  · rw [objectFact?_of_kindName isObject, objectFact?_of_kindName (by rwa [keeps.kindName])]

theorem arrayFact?_kept (node : Node) : arrayFact? (f node) = arrayFact? node := by
  by_cases isArray : node.kindName = "ArrayExpression"
  · cases node with
    | array loc wrapped elements =>
      have shape := plain_kept keeps (.array loc wrapped elements)
      obtain ⟨_, _, eq⟩ := keeps.array loc wrapped elements
      rw [eq] at shape ⊢
      rw [arrayFact?, arrayFact?, shape, List.map_map]
      simp only [Function.comp_def, keeps.kind]
    | _ => simp [Node.kindName] at isArray
  · rw [arrayFact?_of_kindName isArray, arrayFact?_of_kindName (by rwa [keeps.kindName])]

end Kept

end Facts

namespace Gloss

variable {types : Types}

theorem keeps_refill : Node.Keeps (refill types) where
  kindName node := by
    rw [refill_eq]
    cases node <;> simp [put, Node.mapSlots, Node.withSlots, Node.slots, Node.kindName]
  number _ _ _ := ⟨_, _, rfl⟩
  string _ _ _ := ⟨_, _, rfl⟩
  boolean _ _ _ := ⟨_, _, rfl⟩
  identifier _ _ _ _ := ⟨_, _, _, rfl⟩
  object _ _ _ := ⟨_, _, refill_of_other types rfl rfl⟩
  array _ _ _ := ⟨_, _, refill_of_other types rfl rfl⟩
  binary _ _ _ _ _ := ⟨_, _, rfl⟩
  property _ _ _ _ := ⟨_, rfl⟩
  returnStatement _ _ := ⟨_, rfl⟩

/-- The kinds of nodes that have facts or lead to hints. -/
def codeKinds : List String :=
  ["VariableDeclaration", "FunctionDeclaration", "ReturnStatement", "ObjectExpression",
    "ArrayExpression", "BinaryExpression"]

section Code

variable {α : Type} {q : Node → Option α}

/-- A question that concerns code only. -/
def AsksCode (q : Node → Option α) : Prop := ∀ node, node.kindName ∉ codeKinds → q node = none

theorem AsksCode.of_kind (kind : String) (isCode : kind ∈ codeKinds)
    (only : ∀ node : Node, node.kindName ≠ kind → q node = none) : AsksCode q :=
  fun node other => only node fun eq => other (eq ▸ isCode)

theorem AsksCode.quiet (asks : AsksCode q) : Quiet q := by
  intro node binding
  refine asks node ?_
  cases node <;> simp_all [isBinding, Node.kindName, codeKinds]

theorem AsksCode.isTypePart (asks : AsksCode q) {node : Node}
    (part : Grammar.isTypePart node = true) : q node = none := by
  refine asks node ?_
  cases node <;> simp_all [Grammar.isTypePart, Node.isType, Node.kindName, codeKinds]

theorem AsksCode.finds_types (asks : AsksCode q) {type : Node}
    (part : type.Every (Grammar.isTypePart · = true)) : finds q type = [] :=
  finds_eq_nil (part.imp fun _ => asks.isTypePart)

/-- A question about code has the same answers in a tree with types, if each node keeps its own. -/
theorem AsksCode.finds_refill (asks : AsksCode q) {root : Node}
    (every : root.Every (Puts types BothTypes BothTypes))
    (kept : ∀ node : Node, node.Every (Puts types BothTypes BothTypes) →
      q (refill types node) = q node) :
    finds q (refill types root) = finds q root := by
  have same (old new : Node) (both : BothTypes old new) : finds q new = finds q old := by
    rw [asks.finds_types both.1, asks.finds_types both.2]
  exact Gloss.finds_refill asks.quiet asks.quiet
    (every.nested.imp fun node inner => ⟨kept node inner, inner.here.mono types same same⟩)

/-- Interfaces in front of a program have no answers. -/
theorem AsksCode.finds_prepend (asks : AsksCode q) {created : List Node}
    (interfaces : ∀ node ∈ created, node.Every (Grammar.isTypePart · = true)) (program : Node) :
    finds q (prepend created program) = finds q program := by
  cases program with
  | program loc body =>
    have none (statements : List Node) : q (.program loc statements) = none :=
      asks _ (by simp [Node.kindName, codeKinds])
    have nothing : created.flatMap (finds q) = [] :=
      List.flatMap_eq_nil_iff.mpr fun node mem => asks.finds_types (interfaces node mem)
    rw [prepend, finds_eq rfl, finds_eq rfl, none, none, Node.slots, Node.slots,
      List.flatMap_append, nothing, List.nil_append]
  | _ => rfl

end Code

section Facts

open Facts

/-- The names that a node adds, if it adds any. -/
def summands? (node : Node) : Option (List Text) :=
  if node.summands = [] then none else some node.summands

theorem asksCode_summands? : AsksCode summands? :=
  .of_kind "BinaryExpression" (by decide) fun node other => by
    rw [summands?, if_pos (Node.summands_of_kindName other)]

theorem flatMap_summands (nodes : List Node) :
    nodes.flatMap Node.summands = (nodes.filterMap summands?).flatten := by
  induction nodes with
  | nil => rfl
  | cons node rest ih =>
    rw [List.flatMap_cons, List.filterMap_cons, ih, summands?]
    by_cases none : node.summands = [] <;> simp [none]

theorem hints_refill (names : List Text) {body : Node}
    (every : body.Every (Puts types BothTypes BothTypes)) :
    hints names (refill types body) = hints names body := by
  have same := asksCode_summands?.finds_refill every fun node _ => by
    rw [summands?, summands?, keeps_refill.summands]
  rw [finds, finds] at same
  rw [hints, hints, flatMap_summands, flatMap_summands, Node.walk_eq_preorder,
    Node.walk_eq_preorder, same]

/-- The shape of the value that a node returns. -/
def returnedShape? (context : Context) (node : Node) : Option Shape :=
  node.returned?.map (plain context)

theorem asksCode_returnedShape? (context : Context) : AsksCode (returnedShape? context) :=
  .of_kind "ReturnStatement" (by decide) fun node other => by
    rw [returnedShape?, Node.returned?_of_kindName other, Option.map_none]

theorem plainResult_eq (context : Context) (body : Node) :
    plainResult context body = (finds (returnedShape? context) body).getLast?.getD .void := by
  have shapes : finds (returnedShape? context) body =
      (body.walk.filterMap Node.returned?).map (plain context) := by
    rw [List.map_filterMap, Node.walk_eq_preorder]
    rfl
  rw [plainResult, shapes, List.getLast?_map]

theorem plainResult_refill (context : Context) {body : Node}
    (every : body.Every (Puts types BothTypes BothTypes)) :
    plainResult context (refill types body) = plainResult context body := by
  have shape (node : Node) : plain context (refill types node) = plain context node :=
    keeps_refill.plain_map (fun _ => rfl) node
  have same := (asksCode_returnedShape? context).finds_refill every fun node _ => by
    rw [returnedShape?, returnedShape?, keeps_refill.returned?, Option.map_map]
    exact Option.map_congr fun argument _ => shape argument
  rw [plainResult_eq, plainResult_eq, same]

/-- Parameters that are given types bind the names that they bound. -/
theorem names_typeParam {P : Node → Node → Prop} {params new : List Node}
    (pairs : Pairs P params new bindsName Node.bound) :
    (List.zipWith typeParam (params.map (refill types)) new).map (·.bound.name) =
      params.map (·.bound.name) := by
  rw [List.zipWith_map_left]
  refine map_zipWith_of (pairs.imp fun param type both => ?_)
  rcases bindsName_iff.mp both.1 with ⟨loc, wrapped, name, typing, rfl⟩ |
    ⟨loc, nameLoc, wrapped, name, typing, value, rfl⟩ <;> rfl

/-- A function declaration that is given types has the same fact. -/
theorem functionFact_refill {node : Node} (isFunction : isFunction node = true)
    (every : node.Every (Puts types BothTypes BothTypes)) :
    functionFact (refill types node) = functionFact node := by
  cases node with
  | functionDeclaration loc name params body result =>
    have inside := every.each body (by simp [Node.slots])
    simp only [refill_function, functionFact, names_typeParam every.here.1, hints_refill _ inside,
      plainResult_refill _ inside, keeps_refill.functionName]
  | _ => cases isFunction

theorem declaratorOutline?_typeDeclarator {node type : Node} (declares : declaresName node = true) :
    declaratorOutline? (typeDeclarator (refill types node) type) = declaratorOutline? node := by
  obtain ⟨loc, nameLoc, wrapped, name, typing, initializer, rfl⟩ := declaresName_iff.mp declares
  simp only [refill_declarator, refill_identifier, typeDeclarator, withTyping, declaratorOutline?,
    keeps_refill.kind, plain_kept keeps_refill]
  rfl

/-- Variables that are given types have the same outlines. -/
theorem declarationOutline?_refill {node : Node} (puts : Puts types BothTypes BothTypes node) :
    declarationOutline? (refill types node) = declarationOutline? node := by
  by_cases declares : node.kindName = "VariableDeclaration"
  · cases node with
    | variableDeclaration loc keyword declared =>
      have outlines : (List.zipWith typeDeclarator (declared.map (refill types))
          (types.declaration (.variableDeclaration loc keyword declared))).filterMap
            declaratorOutline? = declared.filterMap declaratorOutline? := by
        rw [List.zipWith_map_left, List.filterMap_eq_flatMap_toList,
          List.filterMap_eq_flatMap_toList]
        refine flatMap_zipWith_of (List.Forall₂.imp (fun d type both => ?_) puts)
        rw [declaratorOutline?_typeDeclarator both.1]
      rw [refill_declaration, declarationOutline?, declarationOutline?, outlines]
    | _ => simp [Node.kindName] at declares
  · rw [declarationOutline?_of_kindName declares,
      declarationOutline?_of_kindName (by rwa [keeps_refill.kindName])]

/-- The fact about a function declaration. -/
def functionFact? (node : Node) : Option FunctionFact :=
  if isFunction node then some (functionFact node) else none

theorem functionFact?_refill {node : Node} (every : node.Every (Puts types BothTypes BothTypes)) :
    functionFact? (refill types node) = functionFact? node := by
  rw [functionFact?, functionFact?, isFunction_refill]
  cases declares : isFunction node with
  | true => rw [if_pos rfl, if_pos rfl, functionFact_refill declares every]
  | false => rfl

theorem asksCode_functionFact? : AsksCode functionFact? :=
  .of_kind "FunctionDeclaration" (by decide) fun node other => by
    cases node <;> simp_all [Node.kindName, functionFact?, isFunction]

theorem asksCode_returnFact? : AsksCode returnFact? :=
  .of_kind "ReturnStatement" (by decide) fun _ => returnFact?_of_kindName

theorem asksCode_objectFact? : AsksCode objectFact? :=
  .of_kind "ObjectExpression" (by decide) fun _ => objectFact?_of_kindName

theorem asksCode_arrayFact? : AsksCode arrayFact? :=
  .of_kind "ArrayExpression" (by decide) fun _ => arrayFact?_of_kindName

theorem asksCode_declarationOutline? : AsksCode declarationOutline? :=
  .of_kind "VariableDeclaration" (by decide) fun _ => declarationOutline?_of_kindName

end Facts

section Annotated

open Facts

variable {program : Node} {record : Record} {created : List Node}

theorem DeclaresEntry.isTypePart {known : List Text} {entry : Text × Shape} {node : Node}
    (declares : DeclaresEntry known entry node) : node.Every (Grammar.isTypePart · = true) := by
  obtain ⟨-, members, rfl, each⟩ := declares
  refine .mk rfl (List.forall_mem_cons.mpr ⟨.mk rfl ?_, fun member mem => ?_⟩)
  · exact List.forall_mem_singleton.mpr (.mk rfl nofun)
  · exact (each member mem).typeTree.every

/-- A question about code that each node keeps its answer to has the same answers in the annotated
program as in the program. -/
theorem Glossed.finds_annotated {α : Type} {q : Node → Option α} (asks : AsksCode q)
    (glossed : Glossed program record created)
    (kept : ∀ (types : Types) (node : Node), node.Every (Puts types BothTypes BothTypes) →
      q (refill types node) = q node) :
    finds q (prepend created
      (refill (typesOf (Facts.reserved program) record.interfaces) program)) = finds q program := by
  have interfaces : ∀ node ∈ created, node.Every (Grammar.isTypePart · = true) := by
    intro node mem
    obtain ⟨entry, -, declares⟩ := exists_of_forall₂ glossed.declares.flip mem
    exact DeclaresEntry.isTypePart declares
  rw [asks.finds_prepend interfaces, asks.finds_refill glossed.bothTypes (kept _)]

/-- The facts of a record, as the answers that the nodes of its program give. -/
structure Answers (program : Node) (record : Record) : Prop where
  functions : record.functions = finds functionFact? program
  returns : record.returns = finds returnFact? program
  objects : record.objects = finds objectFact? program
  arrays : record.arrays = finds arrayFact? program
  outlines : record.declarations.map DeclarationFact.outline = finds declarationOutline? program

theorem answers_collect (program : Node) {cache : Cache} (sound : cache.Sound) :
    Answers program (collect program cache).1 := by
  have lists := collect_lists program sound
  have outlines := lists.outlines_eq
  have functions := lists.functions
  obtain ⟨-, returns, objects, arrays⟩ := collect_literals program sound
  rw [Node.walk_eq_preorder] at outlines functions returns objects arrays
  exact ⟨functions.trans (map_filter_preorder _ _ _), returns, objects, arrays, outlines⟩

/-- Annotations are invisible to analysis. A program that was read can be annotated by its record,
and the annotated program has the same facts about functions, return statements, object literals and
array literals, in the same order. Its variables have the same facts, apart from what they are
annotated with. -/
theorem annotate_keeps_facts (dialect : Dialect) (source : Text)
    (history later : List Inference.Request) {program : Node}
    (read : Source.read dialect source = .ok program) :
    let record := (collect program (Inference.Request.serveAll history .empty).2).1
    ∃ annotated, annotate record program = .ok annotated ∧
      let again := (collect annotated (Inference.Request.serveAll later .empty).2).1
      again.functions = record.functions ∧ again.returns = record.returns ∧
        again.objects = record.objects ∧ again.arrays = record.arrays ∧
        again.declarations.map DeclarationFact.outline =
          record.declarations.map DeclarationFact.outline := by
  intro record
  have sound := (Inference.Request.serveAll_sound history Cache.sound_empty).2
  have soundLater := (Inference.Request.serveAll_sound later Cache.sound_empty).2
  obtain ⟨ts, reads⟩ := Source.reads_of_read read
  obtain ⟨created, glossed⟩ := glossed_of_binds sound (binds_of_fits reads.fits)
  refine ⟨_, glossed.annotated, ?_⟩
  have before := answers_collect program sound
  have after := answers_collect (prepend created
    (refill (typesOf (Facts.reserved program) record.interfaces) program)) soundLater
  refine ⟨?_, ?_, ?_, ?_, ?_⟩
  · rw [after.functions, glossed.finds_annotated asksCode_functionFact?
      fun _ _ every => functionFact?_refill every, ← before.functions]
  · rw [after.returns, glossed.finds_annotated asksCode_returnFact?
      fun _ node _ => returnFact?_kept keeps_refill node, ← before.returns]
  · rw [after.objects, glossed.finds_annotated asksCode_objectFact?
      fun _ node _ => objectFact?_kept keeps_refill node, ← before.objects]
  · rw [after.arrays, glossed.finds_annotated asksCode_arrayFact?
      fun _ node _ => arrayFact?_kept keeps_refill node, ← before.arrays]
  · rw [after.outlines, glossed.finds_annotated asksCode_declarationOutline?
      fun _ _ every => declarationOutline?_refill every.here, ← before.outlines]

theorem annotate_keeps_facts_function :
    ∃ program, Source.read .typescript "function f(a){return{k:a+1}}let x={k:[1]}" = .ok program ∧
      ∃ annotated, annotate (collect program .empty).1 program = .ok annotated ∧
        (collect annotated .empty).1.functions = (collect program .empty).1.functions ∧
        (collect annotated .empty).1.objects = (collect program .empty).1.objects := by
  obtain ⟨program, read⟩ : ∃ program,
      Source.read .typescript "function f(a){return{k:a+1}}let x={k:[1]}" = .ok program := ⟨_, rfl⟩
  obtain ⟨annotated, isAnnotated, functions, -, objects, -⟩ :=
    annotate_keeps_facts .typescript _ [] [] read
  exact ⟨program, read, annotated, isAnnotated, functions, objects⟩

end Annotated

end Gloss

end TypeGloss
