import Mathlib.Data.List.Forall2
import Mathlib.Data.List.Induction
import TypeGloss.Check
import TypeGloss.Proofs.Concrete
import TypeGloss.Proofs.InterfaceName

/-!
# What a record lists

The record of a program is described without the memory that collects it: each variable declaration
and each function declaration has one fact, in the order of a walk. The facts of variables refer to
the table of interfaces, which grows while they are collected, so they are described relative to a
table and stay true when it grows.
-/

namespace TypeGloss

namespace Node

/-- Whether a node is an object literal. -/
def isObject : Node → Bool
  | .object .. => true
  | _ => false

/-- Whether a node is a declarator. -/
def isDeclarator : Node → Bool
  | .declarator .. => true
  | _ => false

theorem isObject_iff {node : Node} : node.isObject = true ↔
    ∃ loc wrapped members, node = .object loc wrapped members := by
  cases node <;> simp [isObject]

theorem kind_object_iff (node : Node) :
    node.kind = ("ObjectExpression" : Text) ↔ node.isObject := by
  cases node <;> simp [kind, kindName, isObject] <;> decide

end Node

theorem Inference.isObject_plain {context : Context} {node : Node}
    (isObject : node.isObject = true) :
    (plain context node).isObject = true := by
  obtain ⟨loc, wrapped, members, rfl⟩ := Node.isObject_iff.mp isObject
  rw [plain, Shape.objectOf, Shape.isObject]

section Lists

variable {α β : Type} {R : α → β → Prop} {as : List α} {bs : List β}

private theorem map_eq_of_forall₂ {f : α → β} (each : List.Forall₂ (fun a b => f a = b) as bs) :
    as.map f = bs := by
  rwa [← List.forall₂_eq_eq_eq, List.forall₂_map_left_iff]

theorem exists_of_forall₂ (each : List.Forall₂ R as bs) {a : α} (mem : a ∈ as) :
    ∃ b ∈ bs, R a b := by
  induction each with
  | nil => cases mem
  | cons head _ ih =>
    rcases List.mem_cons.mp mem with rfl | mem
    · exact ⟨_, List.mem_cons_self, head⟩
    · obtain ⟨b, inside, related⟩ := ih mem
      exact ⟨b, List.mem_cons_of_mem _ inside, related⟩

end Lists

namespace Facts

open Gloss (isDeclaration isFunction)
open Inference (plain)
open InterfaceName (Chosen capitalized)

/-- The shape that an initializer is annotated with: its own, unless it is an object literal, which
has a chosen interface. -/
inductive Typed (reserved : List Text) (table : Table Text Shape) (name : Text) :
    Node → Shape → Prop
  | object {initializer : Node} {chosen : Text} (isObject : initializer.isObject = true)
      (choice : Chosen reserved table (capitalized name) (plain [] initializer) chosen) :
      Typed reserved table name initializer (.interface chosen)
  | plain {initializer : Node} (other : initializer.isObject = false) :
      Typed reserved table name initializer (plain [] initializer)

/-- A fact that describes a declarator. -/
inductive DescribesVariable (reserved : List Text) (table : Table Text Shape) :
    Node → DeclaratorFact → Prop
  | mk {loc : Location} {name initializer : Node} {typing : Shape}
      (typed : Typed reserved table name.name initializer typing) :
      DescribesVariable reserved table (.declarator loc name initializer)
        ⟨name.name, initializer.kind, plain [] initializer, typing⟩

/-- A fact that describes a variable declaration. -/
inductive Describes (reserved : List Text) (table : Table Text Shape) :
    Node → DeclarationFact → Prop
  | mk {loc : Location} {keyword : Text} {declared : List Node} {facts : List DeclaratorFact}
      (each : List.Forall₂ (DescribesVariable reserved table)
        (declared.filter Node.isDeclarator) facts) :
      Describes reserved table (.variableDeclaration loc keyword declared) ⟨keyword, facts⟩

/-- The shape of what a function returns: that of the last value that its body returns. -/
def plainResult (context : Context) (body : Node) : Shape :=
  ((body.walk.filterMap Node.returned?).getLast?.map (plain context)).getD .void

/-- The fact about a function declaration. -/
def functionFact : Node → FunctionFact
  | .functionDeclaration _ name params body _ =>
    let names := params.map (·.bound.name)
    let context := hints names body
    { name := name.functionName
      params := names.map fun name => (name, (context.get? name).getD .any)
      result := plainResult context body }
  | _ => ⟨[], [], .any⟩

section Growth

variable {reserved : List Text} {table later : Table Text Shape}

theorem Typed.mono (within : table.Within later) {name : Text} {initializer : Node}
    {typing : Shape} (typed : Typed reserved table name initializer typing) :
    Typed reserved later name initializer typing := by
  cases typed with
  | object isObject choice => exact .object isObject (choice.mono within)
  | plain other => exact .plain other

theorem DescribesVariable.mono (within : table.Within later) {node : Node}
    {fact : DeclaratorFact} (describes : DescribesVariable reserved table node fact) :
    DescribesVariable reserved later node fact := by
  obtain ⟨typed⟩ := describes
  exact ⟨typed.mono within⟩

theorem Describes.mono (within : table.Within later) {node : Node} {fact : DeclarationFact}
    (describes : Describes reserved table node fact) : Describes reserved later node fact := by
  obtain ⟨each⟩ := describes
  exact ⟨each.imp fun _ _ => DescribesVariable.mono within⟩

end Growth

/-- What is true of the table of interfaces at any time. -/
structure Interfaces (reserved : List Text) (table : Table Text Shape) : Prop where
  distinct : table.keys.Nodup
  free : ∀ name ∈ table.keys, name ∉ reserved
  /-- Every entry is the shape of an object literal. -/
  literal : ∀ entry ∈ table, ∃ node : Node, node.isObject = true ∧ entry.2 = plain [] node

theorem Interfaces.empty (reserved : List Text) : Interfaces reserved [] :=
  ⟨List.nodup_nil, by simp [Table.keys], by simp⟩

theorem Interfaces.insert {reserved : List Text} {table : Table Text Shape}
    (interfaces : Interfaces reserved table) {name : Text} (isFree : name ∉ reserved)
    {node : Node} (isObject : node.isObject = true) :
    Interfaces reserved (table.insert name (plain [] node)) := by
  refine ⟨Table.nodup_keys_insert interfaces.distinct, fun key mem => ?_, fun entry mem => ?_⟩
  · obtain ⟨entry, isEntry, rfl⟩ := List.mem_map.mp mem
    rcases Table.mem_insert isEntry with old | rfl
    · exact interfaces.free _ (List.mem_map_of_mem old)
    · exact isFree
  · rcases Table.mem_insert mem with old | rfl
    · exact interfaces.literal entry old
    · exact ⟨node, isObject, rfl⟩

/-- A state whose record lists the declarations among the nodes that were visited. -/
structure Lists (reserved : List Text) (visited : List Node) (state : State) : Prop where
  sound : state.cache.Sound
  declarations : List.Forall₂ (Describes reserved state.record.interfaces)
    (visited.filter isDeclaration) state.record.declarations
  functions : state.record.functions = (visited.filter isFunction).map functionFact
  interfaces : Interfaces reserved state.record.interfaces

variable {reserved : List Text}

/-- What adding variables leaves behind: all that was listed before, and a larger table. -/
structure Extends (reserved : List Text) (before after : State) : Prop where
  sound : after.cache.Sound
  declarations : after.record.declarations = before.record.declarations
  functions : after.record.functions = before.record.functions
  within : before.record.interfaces.Within after.record.interfaces
  interfaces : Interfaces reserved after.record.interfaces

theorem Extends.trans {before between after : State} (first : Extends reserved before between)
    (second : Extends reserved between after) : Extends reserved before after where
  sound := second.sound
  declarations := second.declarations.trans first.declarations
  functions := second.functions.trans first.functions
  within := first.within.trans second.within
  interfaces := second.interfaces

/-- Adding a variable that starts as an object names an interface for it. -/
theorem declarator_object (state : State) (sound : state.cache.Sound) (name : Node)
    (loc : Location) (wrapped : Bool) (members : List Node) :
    let initializer := Node.object loc wrapped members
    let chosen := InterfaceName.choose reserved state.record.interfaces name.name
      (plain [] initializer)
    declarator reserved state name initializer =
      (⟨name.name, initializer.kind, plain [] initializer, .interface chosen⟩,
       { record := { state.record with
           typings := state.record.typings.insert name.name (.interface chosen)
           interfaces := state.record.interfaces.insert chosen (plain [] initializer) }
         cache := (Inference.typeOf [] initializer state.cache).2 }) := by
  have shapeEq := (Inference.typeOf_gives [] (.object loc wrapped members) sound).shape_eq
  simp only [declarator, shapeEq, plain, Shape.objectOf, interfaceFor]

/-- Adding any other variable leaves the table of interfaces as it is. -/
theorem declarator_other (state : State) (sound : state.cache.Sound) (name : Node)
    {initializer : Node} (other : initializer.isObject = false) :
    declarator reserved state name initializer =
      (⟨name.name, initializer.kind, plain [] initializer, plain [] initializer⟩,
       { record := { state.record with
           typings := state.record.typings.insert name.name (plain [] initializer) }
         cache := (Inference.typeOf [] initializer state.cache).2 }) := by
  have shapeEq := (Inference.typeOf_gives [] initializer sound).shape_eq
  simp only [declarator, shapeEq]
  cases initializer with
  | object loc wrapped members => cases other
  | _ => rfl

/-- Adding one variable gives a fact that describes it. -/
theorem declarator_spec {state : State} (sound : state.cache.Sound)
    (interfaces : Interfaces reserved state.record.interfaces) (loc : Location)
    (name initializer : Node) :
    Extends reserved state (declarator reserved state name initializer).2 ∧
      DescribesVariable reserved
        (declarator reserved state name initializer).2.record.interfaces
        (.declarator loc name initializer) (declarator reserved state name initializer).1 := by
  have gives := Inference.typeOf_gives [] initializer sound
  cases isObject : initializer.isObject with
  | true =>
    obtain ⟨objectLoc, wrapped, members, rfl⟩ := Node.isObject_iff.mp isObject
    have chosen := InterfaceName.chosen_choose reserved state.record.interfaces name.name
      (plain [] (.object objectLoc wrapped members))
    rw [declarator_object state sound]
    have within := InterfaceName.within_choose reserved state.record.interfaces name.name
      (plain [] (.object objectLoc wrapped members))
    exact ⟨⟨gives.sound, rfl, rfl, within, interfaces.insert chosen.free rfl⟩,
      .mk (.object rfl chosen)⟩
  | false =>
    rw [declarator_other state sound name isObject]
    exact ⟨⟨gives.sound, rfl, rfl, .refl, interfaces⟩, .mk (.plain isObject)⟩

/-- Adding the variables of a declaration gives one fact for each. -/
theorem declarators_spec (declared : List Node) {state : State} (sound : state.cache.Sound)
    (interfaces : Interfaces reserved state.record.interfaces) :
    Extends reserved state (declarators reserved declared state).2 ∧
      List.Forall₂ (DescribesVariable reserved
        (declarators reserved declared state).2.record.interfaces)
        (declared.filter Node.isDeclarator) (declarators reserved declared state).1 := by
  induction declared generalizing state with
  | nil => exact ⟨⟨sound, rfl, rfl, .refl, interfaces⟩, .nil⟩
  | cons node rest ih =>
    cases node with
    | declarator loc name initializer =>
      obtain ⟨first, describes⟩ := declarator_spec sound interfaces loc name initializer
      obtain ⟨others, each⟩ := ih first.sound first.interfaces
      exact ⟨first.trans others, .cons (describes.mono others.within) each⟩
    | _ => exact ih sound interfaces

theorem result_spec (context : Context) (body : Node) {cache : Cache} (sound : cache.Sound) :
    Cache.Gives (plainResult context body) (result context body cache) := by
  unfold result plainResult
  induction body.walk.filterMap Node.returned? using List.reverseRecOn with
  | nil => exact ⟨rfl, sound⟩
  | append_singleton arguments argument ih =>
    rw [List.foldl_concat, List.getLast?_concat]
    exact Inference.typeOf_gives context argument ih.sound

theorem function_spec (loc : Location) (name : Node) (params : List Node) (body type : Node)
    {cache : Cache} (sound : cache.Sound) :
    (function name params body cache).1 =
        functionFact (.functionDeclaration loc name params body type) ∧
      (function name params body cache).2.Sound := by
  have gives := result_spec (hints (params.map (·.bound.name)) body) body sound
  refine ⟨?_, gives.sound⟩
  simp only [function, functionFact, gives.shape_eq]

theorem properties_sound (members : List Node) {cache : Cache} (sound : cache.Sound) :
    (properties members cache).2.Sound := by
  induction members generalizing cache with
  | nil => exact sound
  | cons member rest ih =>
    cases member with
    | property loc key value shorthand => exact ih (Inference.typeOf_gives [] value sound).sound
    | _ => exact ih sound

/-- A node that is visited adds its fact. -/
theorem Lists.visit {visited : List Node} {state : State} (lists : Lists reserved visited state)
    (node : Node) : Lists reserved (visited ++ [node]) (visit reserved state node) := by
  obtain ⟨sound, declarations, functions, interfaces⟩ := lists
  -- Nodes of other kinds add nothing that is listed here.
  have other (noDeclaration : isDeclaration node = false) (noFunction : isFunction node = false)
      {state' : State} (sound' : state'.cache.Sound)
      (declarationsEq : state'.record.declarations = state.record.declarations)
      (functionsEq : state'.record.functions = state.record.functions)
      (interfacesEq : state'.record.interfaces = state.record.interfaces) :
      Lists reserved (visited ++ [node]) state' := by
    refine ⟨sound', ?_, ?_, interfacesEq ▸ interfaces⟩
    · simpa [noDeclaration, declarationsEq, interfacesEq] using declarations
    · simpa [noFunction, functionsEq] using functions
  cases node with
  | variableDeclaration loc keyword declared =>
    obtain ⟨⟨sound, declarationsEq, functionsEq, within, interfaces⟩, each⟩ :=
      declarators_spec declared sound interfaces
    refine ⟨sound, ?_, ?_, interfaces⟩
    · simp only [Facts.visit, declarationsEq, List.filter_append]
      exact List.rel_append (declarations.imp fun _ _ => Describes.mono within)
        (.cons ⟨each⟩ .nil)
    · simpa [Facts.visit, isFunction, functionsEq] using functions
  | functionDeclaration loc name params body type =>
    obtain ⟨factEq, sound⟩ := function_spec loc name params body type sound
    refine ⟨sound, ?_, ?_, interfaces⟩
    · simpa [Facts.visit, isDeclaration] using declarations
    · simp only [Facts.visit, functions, factEq, List.filter_append, List.map_append]
      rfl
  | returnStatement loc argument =>
    by_cases absent : argument.isAbsent = true
    · simp only [Facts.visit, if_pos absent]
      exact other rfl rfl sound rfl rfl rfl
    · simp only [Facts.visit, if_neg absent]
      exact other rfl rfl (Inference.typeOf_gives [] argument sound).sound rfl rfl rfl
  | object loc wrapped members =>
    exact other rfl rfl (Inference.typeOf_gives [] (.object loc wrapped members)
      (properties_sound members sound)).sound rfl rfl rfl
  | array loc wrapped elements =>
    exact other rfl rfl (Inference.typeOf_gives [] (.array loc wrapped elements) sound).sound
      rfl rfl rfl
  | _ => exact other rfl rfl sound rfl rfl rfl

/-- What the record of a program lists. -/
structure IsRecordOf (program : Node) (record : Record) : Prop where
  declarations : List.Forall₂ (Describes (Facts.reserved program) record.interfaces)
    (program.walk.filter isDeclaration) record.declarations
  functions : record.functions = (program.walk.filter isFunction).map functionFact
  interfaces : Interfaces (Facts.reserved program) record.interfaces

theorem collect_lists (program : Node) {cache : Cache} (sound : cache.Sound) :
    IsRecordOf program (collect program cache).1 := by
  have lists (visited : List Node) : Lists (Facts.reserved program) visited
      (visited.foldl (Facts.visit (Facts.reserved program)) { cache }) := by
    induction visited using List.reverseRecOn with
    | nil => exact ⟨sound, .nil, rfl, .empty _⟩
    | append_singleton visited node ih =>
      rw [List.foldl_concat]
      exact ih.visit node
  obtain ⟨-, declarations, functions, interfaces⟩ := lists program.walk
  exact ⟨declarations, functions, interfaces⟩

/-- The shape that a variable is annotated with, if the table has its interface. -/
def typing (reserved : List Text) (table : Table Text Shape) (name : Text) (initializer : Node) :
    Shape :=
  if initializer.isObject then
    .interface (InterfaceName.choose reserved table name (plain [] initializer))
  else plain [] initializer

/-- The fact about a declarator, if the table has its interface. -/
def declaratorFact (reserved : List Text) (table : Table Text Shape) : Node → DeclaratorFact
  | .declarator _ name initializer =>
    ⟨name.name, initializer.kind, plain [] initializer,
      typing reserved table name.name initializer⟩
  | _ => ⟨[], [], .any, .any⟩

/-- The fact about a variable declaration, if the table has its interfaces. -/
def declarationFact (reserved : List Text) (table : Table Text Shape) : Node → DeclarationFact
  | .variableDeclaration _ keyword declared =>
    ⟨keyword, (declared.filter Node.isDeclarator).map (declaratorFact reserved table)⟩
  | _ => ⟨[], []⟩

section Final

variable {table : Table Text Shape} {node : Node}

/-- The name that was chosen for a variable is the one that the final table gives. -/
theorem Typed.eq_typing {name : Text} {initializer : Node} {shape : Shape}
    (typed : Typed reserved table name initializer shape) :
    shape = typing reserved table name initializer := by
  unfold typing
  cases typed with
  | object isObject choice => rw [if_pos isObject, choice.choose_eq]
  | plain other => rw [if_neg (by simp [other])]

theorem DescribesVariable.eq_declaratorFact {fact : DeclaratorFact}
    (describes : DescribesVariable reserved table node fact) :
    declaratorFact reserved table node = fact := by
  obtain ⟨typed⟩ := describes
  rw [declaratorFact, typed.eq_typing]

theorem Describes.eq_declarationFact {fact : DeclarationFact}
    (describes : Describes reserved table node fact) :
    declarationFact reserved table node = fact := by
  obtain ⟨each⟩ := describes
  rw [declarationFact,
    map_eq_of_forall₂ (each.imp fun _ _ describes => describes.eq_declaratorFact)]

/-- Each variable is annotated with a concrete shape or with an interface of the table. -/
theorem DescribesVariable.annotates {fact : DeclaratorFact}
    (describes : DescribesVariable reserved table node fact) :
    fact.typing.Annotates table.keys := by
  obtain ⟨typed⟩ := describes
  cases typed with
  | object _ choice => exact .interface (Table.mem_keys_of_get? choice.entry)
  | plain => exact .concrete (@Inference.concrete_plain [] nofun _)

end Final

theorem concrete_hints (params : List Text) (body : Node) :
    Inference.ConcreteContext (hints params body) := by
  intro entry mem
  obtain ⟨name, -, rfl⟩ := List.mem_map.mp (Table.mem_of_mem_ofPairs mem)
  exact .primitive _

/-- The shapes of functions are concrete. -/
theorem concrete_functionFact (node : Node) :
    (∀ param ∈ (functionFact node).params, param.2.Concrete) ∧
      (functionFact node).result.Concrete := by
  cases node with
  | functionDeclaration loc name params body type =>
    have context := concrete_hints (params.map (·.bound.name)) body
    constructor
    · intro param mem
      obtain ⟨name, -, rfl⟩ := List.mem_map.mp mem
      exact Inference.concrete_get? context name
    · simp only [functionFact, plainResult]
      cases (body.walk.filterMap Node.returned?).getLast? with
      | none => exact .primitive _
      | some argument => exact Inference.concrete_plain context argument
  | _ => exact ⟨nofun, .any⟩

/-- The facts about variable declarations, each read off its declaration and the final table. -/
theorem IsRecordOf.declarations_eq {program : Node} {record : Record}
    (isRecord : IsRecordOf program record) :
    record.declarations = (program.walk.filter isDeclaration).map
      (declarationFact (Facts.reserved program) record.interfaces) := by
  refine (map_eq_of_forall₂ ?_).symm
  exact isRecord.declarations.imp fun _ _ describes => describes.eq_declarationFact

theorem IsRecordOf.annotates {program : Node} {record : Record}
    (isRecord : IsRecordOf program record) {node : Node} (mem : node ∈ program.walk)
    (declares : isDeclaration node = true) {fact : DeclaratorFact}
    (listed : fact ∈
      (declarationFact (Facts.reserved program) record.interfaces node).declarators) :
    fact.typing.Annotates record.interfaces.keys := by
  obtain ⟨declarationFact, -, describes⟩ :=
    exists_of_forall₂ isRecord.declarations (List.mem_filter.mpr ⟨mem, declares⟩)
  rw [describes.eq_declarationFact] at listed
  obtain ⟨each⟩ := describes
  obtain ⟨declarator, -, describesVariable⟩ := exists_of_forall₂ each.flip listed
  exact DescribesVariable.annotates describesVariable

/-- The declarators of a variable declaration. -/
def declaratorsOf : Node → List Node
  | .variableDeclaration _ _ declared => declared.filter Node.isDeclarator
  | _ => []

/-- The declarators of a program, in the order of a walk. -/
def declaratorsIn (program : Node) : List Node :=
  (program.walk.filter isDeclaration).flatMap declaratorsOf

/-- The facts of a record about declarators. -/
def declaratorFacts (record : Record) : List DeclaratorFact :=
  record.declarations.flatMap DeclarationFact.declarators

/-- A record has one fact for each declarator of its program, in order. -/
theorem IsRecordOf.declarators {program : Node} {record : Record}
    (isRecord : IsRecordOf program record) :
    List.Forall₂ (DescribesVariable (Facts.reserved program) record.interfaces)
      (declaratorsIn program) (declaratorFacts record) := by
  refine List.rel_flatMap isRecord.declarations fun node fact describes => ?_
  obtain ⟨each⟩ := describes
  exact each

/-- The name, the kind of the initializer and the shape that a declarator is listed with. -/
def outline : Node → Text × Text × Shape
  | .declarator _ name initializer => (name.name, initializer.kind, plain [] initializer)
  | _ => ([], [], .any)

section Fact

variable {table : Table Text Shape} {node : Node} {fact : DeclaratorFact}

theorem DescribesVariable.outline_eq (describes : DescribesVariable reserved table node fact) :
    (fact.name, fact.initializerKind, fact.shape) = outline node := by
  obtain ⟨-⟩ := describes
  rfl

/-- Only the facts of object literals name interfaces, which were chosen for them. -/
theorem DescribesVariable.chosen (describes : DescribesVariable reserved table node fact)
    {name : Text} (typing : fact.typing = .interface name) :
    fact.shape.isObject = true ∧ Chosen reserved table (capitalized fact.name) fact.shape name := by
  obtain @⟨_, _, initializer, _, typed⟩ := describes
  cases typed with
  | object isObject choice =>
    obtain rfl := Shape.interface.inj typing
    exact ⟨Inference.isObject_plain isObject, choice⟩
  | plain other =>
    have concrete := @Inference.concrete_plain [] nofun initializer
    rw [show plain [] initializer = .interface name from typing] at concrete
    cases concrete

theorem DescribesVariable.names_interface (describes : DescribesVariable reserved table node fact)
    (kind : fact.initializerKind = "ObjectExpression") :
    ∃ name, fact.typing = .interface name := by
  obtain ⟨typed⟩ := describes
  cases typed with
  | object => exact ⟨_, rfl⟩
  | plain other =>
    rw [(Node.kind_object_iff _).mp kind] at other
    cases other

end Fact

/-- The table of interfaces is sound and stable. Each declarator has a fact; a fact that names an
interface has its shape in the table; no name of the table is a global type's or declared by the
program; and declarators whose names differ at most in the case of their first letters have the same
interface exactly if they have the same shape. -/
theorem interfaces_sound (history : List Inference.Request) (program : Node) :
    let record := (collect program (Inference.Request.serveAll history .empty).2).1
    (declaratorFacts record).map (fun fact => (fact.name, fact.initializerKind, fact.shape)) =
        (declaratorsIn program).map outline ∧
      (∀ fact ∈ declaratorFacts record, ∀ name, fact.typing = .interface name →
        record.interfaces.get? name = some fact.shape ∧ fact.shape.isObject = true) ∧
      (∀ name ∈ record.interfaces.keys,
        name ∉ GlobalType.names ∧ name ∉ Check.declared program) ∧
      ∀ first ∈ declaratorFacts record, ∀ second ∈ declaratorFacts record,
        first.initializerKind = "ObjectExpression" → second.initializerKind = "ObjectExpression" →
        capitalized first.name = capitalized second.name →
        ∃ name other, first.typing = .interface name ∧ second.typing = .interface other ∧
          (name = other ↔ first.shape = second.shape) := by
  intro record
  have sound := (Inference.Request.serveAll_sound history Cache.sound_empty).2
  have isRecord := collect_lists program sound
  have described : ∀ fact ∈ declaratorFacts record, ∃ node,
      DescribesVariable (Facts.reserved program) record.interfaces node fact := by
    intro fact mem
    obtain ⟨node, -, describes⟩ := exists_of_forall₂ isRecord.declarators.flip mem
    exact ⟨node, describes⟩
  refine ⟨?_, fun fact mem name typing => ?_, fun name mem => ?_, ?_⟩
  · rw [← List.forall₂_eq_eq_eq, List.forall₂_map_left_iff, List.forall₂_map_right_iff]
    exact (isRecord.declarators.imp fun _ _ describes => describes.outline_eq).flip
  · obtain ⟨node, describes⟩ := described fact mem
    obtain ⟨isObject, chosen⟩ := describes.chosen typing
    exact ⟨chosen.entry, isObject⟩
  · have free := isRecord.interfaces.free name mem
    rw [Facts.reserved, List.mem_append, not_or] at free
    exact free
  · intro first firstMem second secondMem firstKind secondKind sameBase
    obtain ⟨node, describes⟩ := described first firstMem
    obtain ⟨otherNode, describesOther⟩ := described second secondMem
    obtain ⟨name, typing⟩ := describes.names_interface firstKind
    obtain ⟨other, otherTyping⟩ := describesOther.names_interface secondKind
    have chosen := (describes.chosen typing).2
    rw [sameBase] at chosen
    exact ⟨name, other, typing, otherTyping,
      chosen.name_eq_iff (describesOther.chosen otherTyping).2⟩

/-- The variables `a` and `A` have different shapes and so interfaces with different names. -/
theorem interfaces_sound_capital :
    let loc := Location.synthetic
    let variable_ (name key : Text) : Node := .declarator loc (.identifier loc false name .absent)
      (.object loc false [.property loc (.identifier loc false key .absent)
        (.number loc false "1") false])
    let record := (collect (.program loc
      [.variableDeclaration loc "let" [variable_ "a" "x", variable_ "A" "y"]]) .empty).1
    ∃ first ∈ declaratorFacts record, ∃ second ∈ declaratorFacts record, ∃ name other,
      first.typing = .interface name ∧ second.typing = .interface other ∧ name ≠ other := by
  intro loc variable_ record
  have facts : declaratorFacts record =
      [⟨"a", "ObjectExpression", .object [("x", .number)], .interface "A"⟩,
       ⟨"A", "ObjectExpression", .object [("y", .number)], .interface "A2"⟩] := by decide +kernel
  obtain ⟨-, -, -, names⟩ := interfaces_sound [] (.program loc
    [.variableDeclaration loc "let" [variable_ "a" "x", variable_ "A" "y"]])
  have first : _ ∈ declaratorFacts record := facts ▸ List.mem_cons_self
  have second : _ ∈ declaratorFacts record :=
    facts ▸ List.mem_cons_of_mem _ (List.mem_singleton.mpr rfl)
  obtain ⟨name, other, typing, otherTyping, same⟩ := names _ first _ second rfl rfl (by decide)
  exact ⟨_, first, _, second, name, other, typing, otherTyping,
    fun equal => absurd (same.mp equal) (by decide)⟩

end Facts

end TypeGloss
