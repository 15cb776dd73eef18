import TypeGloss.Proofs.Legible
import TypeGloss.Proofs.RoundTrip

/-!
# Annotated texts pass the check

The annotated program is printed like its settled form. That form fits the grammar of printed trees
if all types of the record are read back, so the text is read as a tree with the same faults: none,
as the program has no type syntax of its own.
-/

namespace TypeGloss

open Grammar (Fits FitsType)
open Gloss (Types refill Puts typesOf slot Glossed)

namespace Node

theorem rekey_of_untyped {node : Node} (untyped : node.isTyped = false) (f : Node → Node) :
    rekey (node.mapSlots f) = node.mapSlots f := by
  cases node with
  | propertySignature => cases untyped
  | _ => simp [mapSlots, withSlots, slots, rekey]

theorem walk_settled (root : Node) : root.settled.walk = root.walk.map settled :=
  walk_map slots_settled (fun node => (looks_settled node).isAbsent) root

theorem name_settled (node : Node) : node.settled.name = node.name := by
  rw [settled_eq]
  cases node <;> simp [mapSlots, withSlots, slots, rekey, name]

theorem name_unplaced (node : Node) : node.unplaced.name = node.name := by
  cases node <;> rfl

theorem mem_evaluationOrder {α : Type} (node : Node) {values : List α} {value : α} :
    value ∈ node.evaluationOrder values ↔ value ∈ values := by
  unfold evaluationOrder
  split
  · simp only [List.mem_cons, List.not_mem_nil, or_false]
    tauto
  all_goals simp [or_comm]

/-- A tree has no fault in a literal if no node has one. -/
theorem literalFault?_eq_none {root : Node} :
    root.literalFault? = none ↔ root.Every (·.ownFault? = none) := by
  induction root using slots_induction with
  | node root ih =>
    rw [literalFault?, fold_eq, List.findSome?_eq_none_iff]
    simp only [List.forall_mem_cons, id, mem_evaluationOrder, List.forall_mem_map]
    constructor
    · rintro ⟨here, each⟩
      exact .mk here fun slot mem => (ih slot mem).mp (each slot mem)
    · exact fun every => ⟨every.here, fun slot mem => (ih slot mem).mpr (every.each slot mem)⟩

theorem ownFault?_settled {node : Node} (none : node.ownFault? = none) :
    node.settled.ownFault? = .none := by
  rw [settled_eq]
  cases node with
  | propertySignature loc key type optional =>
    change (Node.propertySignature loc key.settled type.settled optional).ownFault? = _
    by_cases plain : Key.isPlain key.text = true
    · rw [MemberKey.settled, if_pos plain]
      rfl
    · rw [MemberKey.settled, if_neg plain, ownFault?, Literal.stringFault?,
        Key.stringValue_render (by simpa using plain)]
  | number | string => exact none
  | _ => simp [mapSlots, withSlots, slots, rekey, ownFault?]

theorem ownFault?_refill (types : Types) (node : Node) :
    (refill types node).ownFault? = node.ownFault? := by
  rw [Gloss.refill_eq]
  cases node with
  | propertySignature loc key type optional => cases key <;> rfl
  | _ => simp [Gloss.put, mapSlots, withSlots, slots, ownFault?]

end Node

/-- Created type syntax has no faulty literals. -/
theorem Created.ownFault? {known : List Text} {form : Grammar.TypeForm} {type : Node}
    (created : Created known form type) : type.Every (·.ownFault? = none) := by
  induction created with
  | word | named => exact .mk rfl nofun
  | array _ ih | signature _ ih => exact .mk rfl (List.forall_mem_singleton.mpr ih)
  | literal _ ih | union _ _ ih => exact .mk rfl ih
  | single _ ih => exact ih

namespace Check

section Map

variable {f : Node → Node} (slots : ∀ node, (f node).slots = node.slots.map f)
  (isAbsent : ∀ node, (f node).isAbsent = node.isAbsent) {place : Location → Location}

theorem again_map (place : Location → Location) (seen : List Text)
    (interfaces : List (Location × Text)) :
    again seen (interfaces.map (Prod.map place id)) =
      (again seen interfaces).map (Prod.map place id) := by
  induction interfaces generalizing seen with
  | nil => rfl
  | cons i rest ih =>
    obtain ⟨loc, name⟩ := i
    simp only [List.map_cons, Prod.map, id, again]
    split
    · simp only [List.map_cons, Prod.map, id, ih]
    · exact ih _

include slots isAbsent

/-- The faults of a tree that was changed node by node, but for the names of types. -/
theorem faults_map
    (interface : ∀ node, interface? (f node) = (interface? node).map (Prod.map place id))
    (reference : ∀ interfaces node, reference? interfaces (f node) =
      (reference? interfaces node).map (Prod.map place id)) (root : Node) :
    faults (f root) = (faults root).map (Prod.map place id) := by
  have name (node : Node) : (f node).interfaceName? = node.interfaceName? := by
    have same := congrArg (Option.map Prod.snd) (interface node)
    simpa [interface?, Option.map_map, Function.comp_def] using same
  have sameDeclared : declared (f root) = declared root := by
    simp only [declared, Node.walk_map slots isAbsent, List.filterMap_map, Function.comp_def, name]
  have found {α : Type} {q : Node → Option α} {g : α → α}
      (each : ∀ node, q (f node) = (q node).map g) :
      (f root).walk.filterMap q = (root.walk.filterMap q).map g := by
    simp only [Node.walk_map slots isAbsent, List.filterMap_map, List.map_filterMap,
      Function.comp_def, each]
  rw [faults, faults, sameDeclared, duplicates_eq, duplicates_eq, found interface, again_map,
    found (reference _), List.map_append]

end Map

/-- Faults do not depend on how keys are written. -/
theorem faults_settled (root : Node) : faults root.settled = faults root := by
  suffices same : faults root.settled = (faults root).map (Prod.map id id) by simpa using same
  refine faults_map Node.slots_settled (fun node => (Node.looks_settled node).isAbsent)
    (fun node => ?_) (fun interfaces node => ?_) root
  · rw [Node.settled_eq]
    cases node with
    | interfaceDeclaration loc name members =>
      exact congrArg (fun name => some (loc, name)) (Node.name_settled name)
    | _ => simp [interface?, Node.interfaceName?, Node.mapSlots, Node.withSlots, Node.slots,
        Node.rekey]
  · rw [Node.settled_eq]
    cases node <;> simp [reference?, Node.mapSlots, Node.withSlots, Node.slots, Node.rekey]

/-- Without locations, a tree has the same faults. -/
theorem faults_unplaced (root : Node) :
    faults root.unplaced = (faults root).map (Prod.map (fun _ => .synthetic) id) := by
  refine faults_map Node.slots_unplaced Node.isAbsent_unplaced (fun node => ?_)
    (fun interfaces node => ?_) root
  · cases node with
    | interfaceDeclaration loc name members =>
      exact congrArg (fun name => some (Location.synthetic, name)) (Node.name_unplaced name)
    | _ => rfl
  · cases node with
    | typeReference loc name arguments => simp [reference?, Function.comp_def]
    | _ => rfl

end Check

namespace Gloss

/-- The types with settled keys. -/
def Types.settled (types : Types) : Types where
  declaration node := (types.declaration node).map Node.settled
  function node :=
    ⟨(types.function node).params.map Node.settled, (types.function node).result.settled⟩

theorem settled_withTyping (name type : Node) :
    (withTyping name type).settled = withTyping name.settled type.settled := by
  rw [Node.settled_eq, Node.settled_eq name]
  cases name <;> simp [withTyping, Node.mapSlots, Node.withSlots, Node.slots, Node.rekey]

theorem settled_typeDeclarator (node type : Node) :
    (typeDeclarator node type).settled = typeDeclarator node.settled type.settled := by
  rw [Node.settled_eq, Node.settled_eq node]
  cases node <;> simp [typeDeclarator, Node.mapSlots, Node.withSlots, Node.slots, Node.rekey,
    settled_withTyping]

theorem settled_typeParam (node type : Node) :
    (typeParam node type).settled = typeParam node.settled type.settled := by
  rw [Node.settled_eq, Node.settled_eq node]
  cases node with
  | defaultParam =>
    simp [typeParam, Node.mapSlots, Node.withSlots, Node.slots, Node.rekey, settled_withTyping]
  | _ => simp [typeParam, withTyping, Node.mapSlots, Node.withSlots, Node.slots, Node.rekey]

theorem map_settled_zipWith {f : Node → Node → Node}
    (each : ∀ a b, (f a b).settled = f a.settled b.settled) (as bs : List Node) :
    (List.zipWith f as bs).map Node.settled =
      List.zipWith f (as.map Node.settled) (bs.map Node.settled) := by
  rw [List.map_zipWith, List.zipWith_map]
  simp only [each]

/-- A tree without type syntax is settled by settling the types that are put into it. -/
theorem settled_refill (types : Types) {root : Node} (untyped : root.Every (·.isTyped = false)) :
    (refill types root).settled = refill types.settled root := by
  induction untyped with
  | @mk node here _ ih =>
  have inner : (node.slots.map (refill types)).map Node.settled =
      node.slots.map (refill types.settled) := by
    rw [List.map_map]
    exact List.map_congr_left ih
  cases node with
  | variableDeclaration loc keyword declared =>
    rw [refill_declaration, refill_declaration, Node.settled_eq]
    change Node.variableDeclaration loc keyword ((List.zipWith _ _ _).map Node.settled) = _
    rw [map_settled_zipWith settled_typeDeclarator]
    exact congrArg (fun names => Node.variableDeclaration loc keyword
      (List.zipWith typeDeclarator names _)) inner
  | functionDeclaration loc name params body result =>
    have paramSlots : (params.map (refill types)).map Node.settled =
        params.map (refill types.settled) := by
      rw [List.map_map]
      exact List.map_congr_left fun p mem => ih p (by simp [Node.slots, mem])
    have nameSlot := ih name (by simp [Node.slots])
    have bodySlot := ih body (by simp [Node.slots])
    rw [refill_function, refill_function, Node.settled_eq]
    simp only [Node.mapSlots, Node.withSlots, Node.slots, Node.rekey, List.map_cons,
      List.map_append, List.map_nil, nameSlot, bodySlot]
    simp [Types.settled, map_settled_zipWith settled_typeParam, paramSlots]
  | _ =>
    rw [refill_of_other types rfl rfl, refill_of_other _ rfl rfl, Node.settled_eq,
      Node.mapSlots_mapSlots, Node.rekey_of_untyped here]
    exact Node.mapSlots_congr ih

end Gloss

/-- Whether all types of a record are read back. -/
def Record.isLegible (record : Record) : Bool :=
  record.declarations.all (·.declarators.all (·.typing.isLegible false)) &&
    record.functions.all (·.result.isLegible true) &&
    record.interfaces.all (·.2.isLegible false)

namespace Facts

/-- All parameters are read back with their types. -/
theorem legible_params {node : Node} {inResult : Bool} :
    ∀ param ∈ (functionFact node).params, param.2.isLegible inResult = true := by
  cases node with
  | functionDeclaration loc name params body type =>
    intro param mem
    obtain ⟨name, -, rfl⟩ := List.mem_map.mp mem
    change Shape.isLegible inResult ((Table.get? _ name).getD .any) = true
    cases known : Table.get? (hints (params.map (·.bound.name)) body) name with
    | none => rfl
    | some shape =>
      obtain ⟨hint, -, isHint⟩ :=
        List.mem_map.mp (Table.mem_of_mem_ofPairs (Table.mem_of_get? known))
      obtain rfl : Shape.number = shape := congrArg Prod.snd isHint
      rfl
  | _ => nofun

end Facts

namespace Gloss

open Facts (IsRecordOf declarationFact functionFact)
open Lexeme (isWordText IsName)

/-- Names that are read as names of types. -/
def NamesTypes (known : List Text) : Prop := ∀ name ∈ known, IsName name ∧ name ∉ Parse.keywordTypes

/-- An empty slot is filled with a type that is read back in its settled form. -/
theorem slot_settles {inResult : Bool} {known : List Text} {typing : Node} {shape : Shape}
    (names : NamesTypes known) (empty : typing = .absent) (annotates : shape.Annotates known)
    (legible : shape.isLegible inResult = true) :
    FitsType inResult .type (slot known typing shape).settled := by
  subst empty
  cases annotates with
  | concrete concrete =>
    obtain ⟨type, written, settles⟩ : ∃ type, shape.toSyntax known = .ok type ∧
        shape.Settles inResult type := concrete.settles legible
    have filled : slot known .absent shape = type := by
      simp [slot, slotType, Node.isAbsent, written, Except.toOption]
    exact .single (filled ▸ settles.fits)
  | @interface name mem =>
    have filled : slot known .absent (.interface name) = .typeReference .synthetic name [] := by
      simp [slot, slotType, Node.isAbsent, Shape.toSyntax, mem, Except.toOption]
    rw [filled]
    exact .single (.named (names name mem).1 (names name mem).2)

variable {program : Node} {record : Record} {created : List Node}

/-- The settled types of facts are read back in all slots. -/
theorem puts_settled (isRecord : IsRecordOf program record) (legible : record.isLegible = true)
    (names : NamesTypes record.interfaces.keys) {node : Node} (visited : node ∈ program.walk)
    (bare : Grammar.Bare node) :
    Puts (typesOf (Facts.reserved program) record.interfaces).settled
      (fun _ => FitsType false .type) (fun _ => FitsType true .type) node := by
  simp only [Record.isLegible, Bool.and_eq_true, List.all_eq_true] at legible
  obtain ⟨⟨declarations, functions⟩, -⟩ := legible
  obtain ⟨-, binds, absent⟩ := bare
  cases node with
  | variableDeclaration loc keyword declared =>
    have annotates fact := @isRecord.annotates _ _ _ visited rfl fact
    have legible := declarations _ (isRecord.declarations_eq ▸
      List.mem_map_of_mem (List.mem_filter.mpr ⟨visited, rfl⟩))
    simp only [declarationFact, filter_isDeclarator binds] at annotates legible
    have empty := List.forall_mem_map.mp absent
    simp only [Puts, Pairs, Types.settled, typesOf, typings, declarationFact,
      filter_isDeclarator binds, List.map_map, List.zipWith_map, List.zipWith_self,
      List.forall₂_map_right_iff, List.forall₂_same]
    intro d mem
    have fact := List.mem_map_of_mem (f := Facts.declaratorFact (Facts.reserved program)
      record.interfaces) mem
    exact ⟨List.all_eq_true.mp binds d mem,
      slot_settles names (empty d mem) (annotates _ fact) (legible _ fact)⟩
  | functionDeclaration loc name params body result =>
    obtain ⟨concreteParams, concreteResult⟩ :=
      Facts.concrete_functionFact (.functionDeclaration loc name params body result)
    have legibleParams := @Facts.legible_params (.functionDeclaration loc name params body result)
      false
    have legibleResult := functions _ (isRecord.functions ▸
      List.mem_map_of_mem (List.mem_filter.mpr ⟨visited, rfl⟩))
    obtain ⟨paramSlots, resultSlot⟩ := List.forall_mem_append.mp absent
    have empty := List.forall_mem_map.mp paramSlots
    refine ⟨?_, slot_settles names (resultSlot result List.mem_cons_self)
      (.concrete concreteResult) legibleResult⟩
    simp only [functionFact, List.map_map] at concreteParams legibleParams
    simp only [Pairs, Types.settled, typesOf, functionFact, List.map_map, List.zipWith_map_left,
      List.zipWith_map_right, List.zipWith_self, List.forall₂_map_right_iff, List.forall₂_same]
    intro p mem
    exact ⟨List.all_eq_true.mp binds p mem, slot_settles names (empty p mem)
      (.concrete (concreteParams _ (List.mem_map_of_mem mem)))
      (legibleParams _ (List.mem_map_of_mem mem))⟩
  | _ => trivial

/-- The settled interfaces in front are read back. -/
theorem interfaces_settle (names : NamesTypes record.interfaces.keys)
    (interfaces : Facts.Interfaces (Facts.reserved program) record.interfaces)
    (legible : record.isLegible = true) {entry : Text × Shape} (mem : entry ∈ record.interfaces)
    {node : Node} (declares : DeclaresEntry record.interfaces.keys entry node) :
    Grammar.FitsInterface node.settled := by
  simp only [Record.isLegible, Bool.and_eq_true, List.all_eq_true] at legible
  have isLegible := legible.2 entry mem
  obtain ⟨literal, isObject, shape⟩ := interfaces.literal entry mem
  have concrete : entry.2.Concrete := shape ▸ @Inference.concrete_plain [] nofun literal
  have object : entry.2.isObject = true := shape ▸ Inference.isObject_plain isObject
  obtain ⟨written, members, rfl, -⟩ := declares
  obtain ⟨name, shape⟩ := entry
  cases concrete with
  | @object fields each =>
    simp only [Shape.isLegible, Shape.legibleFields_eq, List.all_eq_true] at isLegible
    obtain ⟨others, writtenMembers, fits⟩ :=
      Shape.memberSyntax_settles record.interfaces.keys fun field inside => by
        have both := isLegible field inside
        rw [Bool.and_eq_true] at both
        exact ⟨by simpa using both.1, (each field inside).settles both.2⟩
    simp only [Shape.interfaceSyntax, writtenMembers] at written
    cases written
    rw [Node.settled_eq]
    exact .mk (names name (List.mem_map_of_mem mem)).1 (List.forall_mem_map.mpr fits)
  | _ => cases object

/-- Whether the variables of a declaration are words. -/
def declaresWords : Node → Bool
  | .variableDeclaration _ _ declared => declared.all fun d => isWordText (declaredBy d).name
  | _ => true

theorem declaresWords_wrap (node : Node) : declaresWords node.wrap = declaresWords node := by
  cases node <;> rfl

theorem declaresWords_of_fits {R : Prop} {form : Grammar.Form} {node : Node}
    (fits : Fits (.source R) form node) : node.Every (declaresWords · = true) := by
  have part (node : Node) (isPart : Grammar.isTypePart node = true) :
      declaresWords node = true := by
    cases node <;> first | rfl | cases isPart
  have parts : Fits.Parts (.source R) (declaresWords · = true) :=
    .of_isTypePart part (by rintro _ (_ | _ | _) <;> rfl)
  refine fits.every parts fun {form node} fits => ?_
  induction fits with
  | declaration word some each =>
    refine List.all_eq_true.mpr fun d mem => ?_
    cases each d mem with
    | declarator bound =>
      cases bound with
      | plain isName => exact isName.1
      | typed annotated => exact annotated.1
  | wrapped _ _ ih => exact (declaresWords_wrap _).trans ih
  | binary level => cases level <;> rfl
  | param bound => cases bound <;> rfl
  | interface allowed => cases allowed; rfl
  | given _ ih | declaredVariables _ ih | initializerVariables _ ih
  | initializerExpression _ ih | declared _ ih | blockStatement _ ih => exact ih
  | _ => rfl

/-- The names of the interfaces of a record are read as names of types. -/
theorem namesTypes_collect {R : Prop} (fits : Fits (.source R) .program program) (cache : Cache) :
    NamesTypes (Facts.collect program cache).1.interfaces.keys := by
  refine Facts.keys_collect program cache fun loc keyword declared visited _ name initializer mem =>
    InterfaceName.isName_candidate ?_
  have words := Node.walk_of_every (declaresWords_of_fits fits) _ visited
  exact List.all_eq_true.mp words _ mem

/-- The settled form of the annotated program fits the grammar of printed trees. -/
theorem Glossed.fits_settled {R : Prop} (glossed : Glossed program record created)
    (fits : Fits (.source R) .program program) (plain : program.Every (Grammar.Plain False))
    (legible : record.isLegible = true) (names : NamesTypes record.interfaces.keys) :
    Fits (.rendered False) .program (prepend created
      (refill (typesOf (Facts.reserved program) record.interfaces) program)).settled := by
  have suits : program.Every fun node => Grammar.Plain False node ∧
      Puts (typesOf (Facts.reserved program) record.interfaces).settled
        (fun _ => Grammar.TypesBinders (.rendered False))
        (fun _ => Grammar.ResultSlot (.rendered False)) node := by
    refine Node.every_of_walk ⟨⟨⟨rfl, rfl, nofun⟩, .inr nofun⟩, trivial⟩ program
      fun node visited => ?_
    have isPlain := Node.walk_of_every plain node visited
    refine ⟨isPlain, (puts_settled glossed.isRecord legible names visited isPlain.1).mono _
      (fun _ type fitsType loc name old bound => .typed ⟨?_, fitsType⟩)
      fun _ type fitsType => .some fitsType⟩
    cases bound with
    | plain isName => exact isName
    | typed annotated => exact annotated.1
  have filled := fits.refill (Grammar.suits_of_puts R (.rendered False) _) suits
  rw [← settled_refill _ (plain.imp fun _ here => here.1.untyped)] at filled
  cases fits with
  | program =>
    rw [refill_of_other _ rfl rfl, Node.settled_eq] at filled
    rw [refill_of_other _ rfl rfl, Node.settled_eq]
    cases filled with
    | program each =>
      simp only [Node.mapSlots, Node.withSlots, Node.slots, prepend, List.map_append]
      refine .program (List.forall_mem_append.mpr
        ⟨List.forall_mem_map.mpr fun node mem => ?_, each⟩)
      obtain ⟨entry, inside, declares⟩ := exists_of_forall₂ glossed.declares.flip mem
      exact .interface (interfaces_settle names glossed.isRecord.interfaces legible inside declares)

theorem isProgram_of_fits {G : Grammar} {node : Node} (fits : Fits G .program node) :
    ∃ loc body, node = .program loc body := by
  cases fits
  exact ⟨_, _, rfl⟩

section Annotated

variable {annotated : Node} (glossed : Glossed program record created)
  (isAnnotated : annotate record program = .ok annotated) {loc : Location} {body : List Node}
  (isProgram : program = .program loc body)

include glossed isAnnotated isProgram

/-- The literals of an annotated program have values, like those of the program itself. -/
theorem literalFault?_annotated (literals : program.literalFault? = none) :
    annotated.settled.literalFault? = none := by
  have own := Node.walk_of_every (Node.literalFault?_eq_none.mp literals)
  have none : annotated.walk.filterMap Node.ownFault? = [] := by
    rw [Check.finds_annotated glossed isAnnotated isProgram
      (fun node binding => by cases node <;> first | rfl | cases binding) (fun _ => rfl)
      Node.ownFault?_refill Created.ownFault? fun _ => .none]
    · simpa using own
    · rintro entry _ ⟨-, members, rfl, -⟩
      rfl
  have each : ∀ node ∈ annotated.settled.walk, node.ownFault? = .none := by
    rw [Node.walk_settled]
    exact List.forall_mem_map.mpr fun node visited =>
      Node.ownFault?_settled (List.filterMap_eq_nil_iff.mp none node visited)
  exact Node.literalFault?_eq_none.mpr (Node.every_of_walk (p := (·.ownFault? = .none)) rfl _ each)

/-- An annotated program without type syntax of its own has no faults. -/
theorem faults_annotated_untyped (untyped : ∀ node ∈ program.walk, node.isTyped = false) :
    Check.faults annotated = [] := by
  have global : ("Array" : Text) ∉ Check.declared program := by
    rw [Check.declared_eq_nil untyped]
    exact List.not_mem_nil
  rw [Check.faults, Check.declared_annotated glossed isAnnotated isProgram,
    Check.duplicates_annotated glossed isAnnotated isProgram,
    Check.references_annotated glossed isAnnotated isProgram global]
  exact Check.faults_eq_nil untyped _

end Annotated

end Gloss

namespace Transpiled

open Gloss

/-- The annotated text of a program without type syntax and without reserved words as operands
passes the check if all types of its record are read back, in either layout and whatever is in
memory from earlier requests. -/
theorem ofSource_passes (dialect : Dialect) (layout : Layout) (source : Text)
    (history : List Inference.Request) {program : Node}
    (read : Source.read dialect source = .ok program)
    (untyped : ∀ node ∈ program.walk, node.isTyped = false)
    (operands : ∀ node ∈ program.walk, ∀ operand ∈ node.operands, operand.isReserved = false)
    (legible : (Facts.collect program
      (Inference.Request.serveAll history .empty).2).1.isLegible = true) :
    ∃ transpiled cache,
      ofSource dialect layout source (Inference.Request.serveAll history .empty).2 =
        .ok (transpiled, cache) ∧
      ∀ file, Check.text file transpiled.text = [] := by
  have sound := (Inference.Request.serveAll_sound history Cache.sound_empty).2
  generalize (Inference.Request.serveAll history .empty).2 = memory at legible sound ⊢
  obtain ⟨ts, reads⟩ := Source.reads_of_read read
  obtain ⟨created, glossed⟩ := glossed_of_binds sound (binds_of_fits reads.fits)
  obtain ⟨loc, body, isProgram⟩ := isProgram_of_fits reads.fits
  have fits := glossed.fits reads.fits
  have isAnnotated := glossed.annotated
  have bare := Grammar.bare_of_fits reads.fits
    (Node.every_of_walk (p := (·.isTyped = false)) rfl program untyped)
  have plain : program.Every (Grammar.Plain False) :=
    Node.every_of_walk ⟨⟨rfl, rfl, nofun⟩, .inr nofun⟩ program fun node visited =>
      ⟨Node.walk_of_every bare node visited, .inr (operands node visited)⟩
  have settled := glossed.fits_settled reads.fits plain legible
    (namesTypes_collect reads.fits memory)
  generalize prepend created (refill (typesOf (Facts.reserved program)
    (Facts.collect program memory).1.interfaces) program) = annotated at fits isAnnotated settled
  have printed := print_of_fits layout fits
  obtain ⟨again, readAgain, same⟩ := settled.read_text layout .typescript
    (literalFault?_annotated glossed isAnnotated isProgram reads.literals) nofun
  have noFaults : Check.faults again = [] := by
    have none := faults_annotated_untyped glossed isAnnotated isProgram untyped
    rw [← Check.faults_settled] at none
    have unplaced := Check.faults_unplaced again
    rw [same, Check.faults_unplaced, none] at unplaced
    exact List.map_eq_nil_iff.mp unplaced.symm
  rw [(Pieces.same_settled layout annotated).node, ← (Print.pieced annotated fits.chained).text]
    at readAgain
  refine ⟨⟨program, (Facts.collect program memory).1, annotated, Print.node layout 0 [] annotated⟩,
    (Facts.collect program memory).2, ?_, fun file => ?_⟩
  · simp only [ofSource, read, ofProgram, isAnnotated, printed]
    rfl
  · simp only [Check.text, readAgain, noFaults, List.map_nil]

theorem ofSource_passes_literal :
    ∃ transpiled cache, ofSource .typescript .pretty "let a=\x7bb:[1,'c']\x7d" .empty =
      .ok (transpiled, cache) ∧ Check.text none transpiled.text = [] := by
  obtain ⟨program, read, untyped, operands, legible⟩ : ∃ program,
      Source.read .typescript "let a=\x7bb:[1,'c']\x7d" = .ok program ∧
      program.walk.all (!·.isTyped) = true ∧
      program.walk.all (fun node => node.operands.all (!·.isReserved)) = true ∧
      (Facts.collect program .empty).1.isLegible = true := ⟨_, rfl, rfl, rfl, rfl⟩
  obtain ⟨transpiled, cache, isTranspiled, passes⟩ :=
    ofSource_passes .typescript .pretty _ [] read
      (fun node visited => by simpa using List.all_eq_true.mp untyped node visited)
      (fun node visited operand mem => by
        simpa using List.all_eq_true.mp (List.all_eq_true.mp operands node visited) operand mem)
      legible
  exact ⟨transpiled, cache, isTranspiled, passes none⟩

/-- The element type of an array is a union with an object type behind the bar. Its brace is read as
that of a block, and the text is no program. -/
theorem ofSource_passes_union :
    ¬ ∀ program, Source.read .typescript "let x=[1,\x7ba:1\x7d]" = .ok program →
      (∀ node ∈ program.walk, node.isTyped = false) →
      ∃ transpiled cache, ofSource .typescript .compact "let x=[1,\x7ba:1\x7d]" .empty =
        .ok (transpiled, cache) ∧ ∀ file, Check.text file transpiled.text = [] := by
  obtain ⟨program, read, untyped⟩ : ∃ program,
      Source.read .typescript "let x=[1,\x7ba:1\x7d]" = .ok program ∧
      program.walk.all (!·.isTyped) = true := ⟨_, rfl, rfl⟩
  have fails : (ofSource .typescript .compact "let x=[1,\x7ba:1\x7d]" .empty).toOption.map
      (fun written => (written.1.text, (Check.text none written.1.text).isEmpty)) =
        some (("let x:Array<number|\x7ba:number;\x7d>=[1,\x7ba:1\x7d];" : Text), false) := by
    decide +kernel
  intro passes
  obtain ⟨transpiled, cache, isTranspiled, none⟩ := passes program read fun node visited => by
    simpa using List.all_eq_true.mp untyped node visited
  simp [isTranspiled, Except.toOption, none] at fails

end Transpiled

end TypeGloss
