import TypeGloss.Check
import TypeGloss.Proofs.Gloss

/-!
# Type names of annotated programs

The interfaces in front have new names, all different. What annotating puts into slots refers to
them, or to the global type `Array` with one argument. So an annotated program has the faults of the
program itself, unless that declares an interface `Array` of its own.
-/

namespace TypeGloss

open Grammar (TypeTree)
open Gloss (refill Types Puts Filled finds Quiet Glossed DeclaresEntry)

/-- Whether a node is type syntax or declares an interface. -/
def Node.isTyped (node : Node) : Bool := node.isType || node.interfaceName?.isSome

namespace Check

/-- The interface that a node declares, with its place. -/
def interface? (node : Node) : Option (Location × Text) := node.interfaceName?.map (node.loc, ·)

/-- The interfaces whose names came before. -/
def again : (seen : List Text) → List (Location × Text) → List (Location × Fault)
  | _, [] => []
  | seen, (loc, name) :: rest =>
    if seen.contains name then (loc, .duplicate name) :: again seen rest
    else again (name :: seen) rest

theorem duplicates_eq (seen : List Text) (nodes : List Node) :
    duplicates seen nodes = again seen (nodes.filterMap interface?) := by
  induction nodes generalizing seen with
  | nil => rfl
  | cons node rest ih =>
    cases declares : node.interfaceName? with
    | none => simp [duplicates, interface?, declares, ih]
    | some name => simp [duplicates, interface?, declares, again, ih]

/-- Names that do not occur need not be remembered. -/
theorem again_congr {seen seen' : List Text} {interfaces : List (Location × Text)}
    (same : ∀ i ∈ interfaces, i.2 ∈ seen ↔ i.2 ∈ seen') :
    again seen interfaces = again seen' interfaces := by
  induction interfaces generalizing seen seen' with
  | nil => rfl
  | cons i rest ih =>
    obtain ⟨here, others⟩ := List.forall_mem_cons.mp same
    have contains : seen.contains i.2 = seen'.contains i.2 := by
      rw [Bool.eq_iff_iff, List.contains_iff_mem, List.contains_iff_mem, here]
    rw [again, again, contains, ih others]
    congr 1
    exact ih fun j mem => by simp [others j mem]

/-- New names in front, all different, are no duplicates and make none. -/
theorem again_append_of_new {seen : List Text} {created interfaces : List (Location × Text)}
    (distinct : (created.map Prod.snd).Nodup) (new : ∀ i ∈ created, i.2 ∉ seen)
    (other : ∀ i ∈ created, ∀ j ∈ interfaces, i.2 ≠ j.2) :
    again seen (created ++ interfaces) = again seen interfaces := by
  induction created generalizing seen with
  | nil => rfl
  | cons i rest ih =>
    obtain ⟨here, others⟩ := List.forall_mem_cons.mp other
    obtain ⟨newHere, newOthers⟩ := List.forall_mem_cons.mp new
    rw [List.map_cons, List.nodup_cons] at distinct
    have newRest : ∀ j ∈ rest, j.2 ∉ i.2 :: seen := by
      intro j mem
      rw [List.mem_cons, not_or]
      refine ⟨fun same => distinct.1 ?_, newOthers j mem⟩
      exact same ▸ List.mem_map_of_mem mem
    calc again seen (i :: rest ++ interfaces)
      _ = again (i.2 :: seen) (rest ++ interfaces) := by simp [again, newHere]
      _ = again (i.2 :: seen) interfaces := ih distinct.2 newRest others
      _ = again seen interfaces := again_congr fun j mem => by simp [(here j mem).symm]

section Kept

variable (types : Types) (node : Node)

@[simp] theorem name_refill : (refill types node).name = node.name := by
  rw [Gloss.refill_eq]
  cases node <;> simp [Gloss.put, Node.mapSlots, Node.withSlots, Node.slots, Node.name]

@[simp] theorem interfaceName?_refill :
    (refill types node).interfaceName? = node.interfaceName? := by
  rw [Gloss.refill_eq]
  cases node <;>
    simp [Gloss.put, Node.mapSlots, Node.withSlots, Node.slots, Node.interfaceName?]

theorem interface?_refill : interface? (refill types node) = interface? node := by
  rw [Gloss.refill_eq]
  cases node <;>
    simp [Gloss.put, Node.mapSlots, Node.withSlots, Node.slots, interface?, Node.interfaceName?,
      Node.loc]

theorem reference?_refill (interfaces : List Text) :
    reference? interfaces (refill types node) = reference? interfaces node := by
  rw [Gloss.refill_eq]
  cases node <;> simp [Gloss.put, Node.mapSlots, Node.withSlots, Node.slots, reference?]

end Kept

section Created

variable {known interfaces : List Text} {form : Grammar.TypeForm} {node : Node}

/-- Created type syntax declares no interface. -/
theorem interfaceName?_of_created (created : Created known form node) :
    node.Every (Node.interfaceName? · = none) :=
  created.typeTree.every_of (fun node isType => by cases node <;> first | rfl | cases isType) rfl

/-- A created reference to `Array` in a program that declares an interface of that name. -/
def shadowed : Location × Fault := (.synthetic, .notGeneric "Array")

/-- Created type syntax refers to interfaces, and to `Array` with one argument. -/
theorem reference?_of_created (created : Created known form node)
    (isKnown : ∀ name ∈ known, name ∈ interfaces) :
    node.Every fun node => reference? interfaces node = none ∨
      (("Array" : Text) ∈ interfaces ∧ reference? interfaces node = some shadowed) := by
  induction created with
  | word => exact .mk (.inl rfl) nofun
  | @named name mem =>
    have arity : arity? interfaces name = some 0 := by simp [arity?, isKnown name mem]
    exact .mk (.inl (by simp [reference?, referenceFault?, arity])) nofun
  | array _ ih =>
    refine .mk ?_ (List.forall_mem_singleton.mpr ih)
    by_cases declares : ("Array" : Text) ∈ interfaces
    · have arity : arity? interfaces "Array" = some 0 := by simp [arity?, declares]
      exact .inr ⟨declares, by simp [reference?, referenceFault?, arity, shadowed]⟩
    · have arity : arity? interfaces "Array" = some 1 := by
        rw [arity?, if_neg (by simpa using declares)]
        rfl
      exact .inl (by simp [reference?, referenceFault?, arity])
  | literal _ ih | union _ _ ih => exact .mk (.inl rfl) ih
  | single _ ih => exact ih
  | signature _ ih => exact .mk (.inl rfl) (List.forall_mem_singleton.mpr ih)

end Created

section Annotated

variable {α : Type} {q : Node → Option α} {known : List Text} {program : Node} {record : Record}
  {created : List Node}

/-- What a question that created types do not answer finds in the interfaces in front. -/
theorem finds_created (quiet : Quiet q) {answer : Text × Shape → Option α}
    (types : ∀ {form type}, Created known form type → type.Every (q · = none))
    {table : Table Text Shape} (declares : List.Forall₂ (DeclaresEntry known) table created)
    (gives : ∀ entry node, DeclaresEntry known entry node → q node = answer entry) :
    created.flatMap (finds q) = table.filterMap answer := by
  induction declares with
  | nil => rfl
  | @cons entry node table created here _ ih =>
    have answers := gives entry node here
    obtain ⟨-, members, rfl, each⟩ := here
    have inside : members.flatMap (finds q) = [] :=
      List.flatMap_eq_nil_iff.mpr fun m mem => Gloss.finds_eq_nil (types (each m mem))
    have absent : finds q .absent = [] := rfl
    rw [List.flatMap_cons, ih, Gloss.finds_eq rfl, answers, Node.slots, List.flatMap_cons, inside,
      quiet.finds_identifier, absent]
    cases found : answer entry <;> simp [found]

variable (glossed : Glossed program record created) {annotated : Node}
  (isAnnotated : Gloss.annotate record program = .ok annotated) {loc : Location} {body : List Node}
  (isProgram : program = .program loc body)

include glossed isAnnotated isProgram

/-- A question that created types do not answer finds in the annotated program what it finds in the
interfaces in front and in the program itself. -/
theorem finds_annotated (quiet : Quiet q) (ignored : ∀ body, q (.program loc body) = none)
    (kept : ∀ types node, q (refill types node) = q node)
    (types : ∀ {form type}, Created record.interfaces.keys form type → type.Every (q · = none))
    (answer : Text × Shape → Option α)
    (gives : ∀ entry node, DeclaresEntry record.interfaces.keys entry node →
      q node = answer entry) :
    annotated.walk.filterMap q =
      record.interfaces.filterMap answer ++ program.walk.filterMap q := by
  have filled (old new : Node) (filled : Filled record.interfaces.keys old new) :
      finds q new = finds q old := by
    rcases filled with ⟨absent, created⟩ | ⟨-, rfl⟩
    · obtain rfl := Node.eq_absent absent
      exact Gloss.finds_eq_nil (types created)
    · rfl
  have same : finds q (refill (Gloss.typesOf (Facts.reserved program) record.interfaces) program) =
      finds q program :=
    Gloss.finds_refill quiet quiet (glossed.puts.imp fun node puts =>
      ⟨kept _ node, puts.mono _ filled filled⟩)
  obtain rfl := Except.ok.inj (isAnnotated.symm.trans glossed.annotated)
  subst isProgram
  rw [Node.walk_eq_preorder, Node.walk_eq_preorder, ← finds, ← finds, ← same,
    ← finds_created quiet types glossed.declares gives, Gloss.refill_of_other _ rfl rfl,
    Node.mapSlots]
  simp only [Node.slots, Node.withSlots, Gloss.prepend]
  rw [Gloss.finds_eq rfl, Gloss.finds_eq rfl, ignored, ignored]
  simp [Node.slots]

/-- The annotated program declares the interfaces of the table and its own. -/
theorem declared_annotated :
    declared annotated = record.interfaces.keys ++ declared program := by
  rw [declared, declared, finds_annotated glossed isAnnotated isProgram
    (fun node binding => by cases node <;> first | rfl | cases binding) (fun _ => rfl)
    interfaceName?_refill interfaceName?_of_created fun entry => some entry.1]
  · simp [Table.keys]
  · rintro entry _ ⟨-, members, rfl, -⟩
    rfl

/-- No interface in front is a duplicate or makes one. -/
theorem duplicates_annotated : duplicates [] annotated.walk = duplicates [] program.walk := by
  have found : annotated.walk.filterMap interface? =
      record.interfaces.map (fun entry => (.synthetic, entry.1)) ++
        program.walk.filterMap interface? := by
    rw [finds_annotated glossed isAnnotated isProgram
      (fun node binding => by cases node <;> first | rfl | cases binding) (fun _ => rfl)
      interface?_refill (fun created => (interfaceName?_of_created created).imp fun node none => ?_)
      fun entry => some (.synthetic, entry.1)]
    · simp
    · rintro entry _ ⟨-, members, rfl, -⟩
      rfl
    · simp [interface?, none]
  obtain ⟨distinct, free, -⟩ := glossed.isRecord.interfaces
  rw [duplicates_eq, duplicates_eq, found]
  refine again_append_of_new ?_ (fun _ _ => List.not_mem_nil) ?_
  · rw [List.map_map]
    exact distinct
  · intro i created j own same
    obtain ⟨entry, mem, rfl⟩ := List.mem_map.mp created
    obtain ⟨node, visited, declares⟩ := List.mem_filterMap.mp own
    obtain ⟨name, named, rfl⟩ := Option.map_eq_some_iff.mp declares
    have reserved : name ∈ Facts.reserved program :=
      List.mem_append_right _ (List.mem_filterMap.mpr ⟨node, visited, named⟩)
    have isName : entry.1 = name := same
    exact free entry.1 (List.mem_map_of_mem mem) (isName ▸ reserved)

/-- A program that declares no interface `Array` is given no fault by created types. -/
theorem references_annotated (global : ("Array" : Text) ∉ declared program) :
    annotated.walk.filterMap (reference? (record.interfaces.keys ++ declared program)) =
      program.walk.filterMap (reference? (record.interfaces.keys ++ declared program)) := by
  have isGlobal : ("Array" : Text) ∉ record.interfaces.keys ++ declared program := by
    rw [List.mem_append, not_or]
    refine ⟨fun mem => glossed.isRecord.interfaces.free _ mem ?_, global⟩
    exact List.mem_append_left _ (by decide)
  rw [finds_annotated glossed isAnnotated isProgram
    (fun node binding => by cases node <;> first | rfl | cases binding) (fun _ => rfl)
    (fun types node => reference?_refill types node _)
    (fun created => (reference?_of_created created fun _ => List.mem_append_left _).imp
      fun node refers => refers.resolve_right fun shadows => isGlobal shadows.1) fun _ => none]
  · simp
  · rintro entry _ ⟨-, members, rfl, -⟩
    rfl

/-- All faults of references are those of the program itself, but for created references to an
interface `Array`. -/
theorem references_annotated_of_ne :
    (annotated.walk.filterMap (reference? (record.interfaces.keys ++ declared program))).filter
        (· ≠ shadowed) =
      (program.walk.filterMap (reference? (record.interfaces.keys ++ declared program))).filter
        (· ≠ shadowed) := by
  have ignored {form : Grammar.TypeForm} {type : Node}
      (created : Created record.interfaces.keys form type) :
      type.Every fun node => (reference? (record.interfaces.keys ++ declared program) node).filter
        (· ≠ shadowed) = none := by
    refine (reference?_of_created created fun _ => List.mem_append_left (declared program)).imp
      fun node refers => ?_
    rcases refers with none | ⟨-, shadows⟩
    · rw [none]
      rfl
    · rw [shadows]
      rfl
  rw [List.filter_filterMap, List.filter_filterMap, finds_annotated glossed isAnnotated isProgram
    (fun node binding => by cases node <;> first | rfl | cases binding) (fun _ => rfl)
    (fun types node => by rw [reference?_refill]) ignored fun _ => none]
  · simp
  · rintro entry _ ⟨-, members, rfl, -⟩
    rfl

end Annotated

section Untyped

variable {program : Node} (untyped : ∀ node ∈ program.walk, node.isTyped = false)

include untyped

/-- A question about type syntax finds nothing in a program without any. -/
theorem filterMap_walk_eq_nil {α : Type} {q : Node → Option α}
    (none : ∀ node : Node, node.isTyped = false → q node = none) :
    program.walk.filterMap q = [] :=
  List.filterMap_eq_nil_iff.mpr fun node visited => none node (untyped node visited)

theorem declared_eq_nil : declared program = [] :=
  filterMap_walk_eq_nil untyped fun node typed => by cases node <;> first | rfl | cases typed

/-- A program without type syntax has no faults. -/
theorem faults_eq_nil (interfaces : List Text) :
    duplicates [] program.walk ++ program.walk.filterMap (reference? interfaces) = [] := by
  rw [duplicates_eq, filterMap_walk_eq_nil untyped, filterMap_walk_eq_nil untyped]
  · rfl
  · intro node typed
    cases node <;> first | rfl | cases typed
  · intro node typed
    cases node <;> first | rfl | cases typed

end Untyped

/-- Annotating brings no fault into a program that declares no interface `Array`. The annotated
program has the duplicates of the program itself, and the faults that the references of the program
itself have with the interfaces of the record. In a program that does declare an interface `Array`,
a created reference to it is the only other fault. -/
theorem faults_annotated (dialect : Dialect) (source : Text) (history : List Inference.Request)
    {program : Node} (read : Source.read dialect source = .ok program) :
    let record := (Facts.collect program (Inference.Request.serveAll history .empty).2).1
    let own := duplicates [] program.walk ++
      program.walk.filterMap (reference? (record.interfaces.keys ++ declared program))
    ∃ annotated, Gloss.annotate record program = .ok annotated ∧
      (("Array" : Text) ∉ declared program → faults annotated = own) ∧
      (faults annotated).filter (· ≠ shadowed) = own.filter (· ≠ shadowed) ∧
      ((∀ node ∈ program.walk, node.isTyped = false) → faults annotated = []) := by
  intro record own
  have sound := (Inference.Request.serveAll_sound history Cache.sound_empty).2
  obtain ⟨ts, reads⟩ := Source.reads_of_read read
  obtain ⟨created, glossed⟩ := Gloss.glossed_of_binds sound (Gloss.binds_of_fits reads.fits)
  obtain ⟨loc, body, isProgram⟩ : ∃ loc body, program = .program loc body := by
    cases reads.fits
    exact ⟨_, _, rfl⟩
  obtain ⟨annotated, isAnnotated⟩ : ∃ annotated, Gloss.annotate record program = .ok annotated :=
    ⟨_, glossed.annotated⟩
  have found : faults annotated = duplicates [] program.walk ++
      annotated.walk.filterMap (reference? (record.interfaces.keys ++ declared program)) := by
    rw [faults, declared_annotated glossed isAnnotated isProgram,
      duplicates_annotated glossed isAnnotated isProgram]
  have same (global : ("Array" : Text) ∉ declared program) : faults annotated = own := by
    rw [found, references_annotated glossed isAnnotated isProgram global]
  refine ⟨annotated, isAnnotated, same, ?_, fun untyped => ?_⟩
  · rw [found, List.filter_append, List.filter_append,
      references_annotated_of_ne glossed isAnnotated isProgram]
  · have global : ("Array" : Text) ∉ declared program := by
      rw [declared_eq_nil untyped]
      exact List.not_mem_nil
    rw [same global]
    exact faults_eq_nil untyped _

theorem faults_annotated_array :
    ∃ program annotated, Source.read .typescript "let x=[1]" = .ok program ∧
      Gloss.annotate (Facts.collect program .empty).1 program = .ok annotated ∧
      faults annotated = [] := by
  obtain ⟨program, read, untyped⟩ : ∃ program, Source.read .typescript "let x=[1]" = .ok program ∧
      program.walk.all (!·.isTyped) = true := ⟨_, rfl, rfl⟩
  obtain ⟨annotated, isAnnotated, -, -, none⟩ :=
    faults_annotated .typescript "let x=[1]" [] read
  refine ⟨program, annotated, read, isAnnotated, none fun node visited => ?_⟩
  simpa using List.all_eq_true.mp untyped node visited

/-- An interface `Array` takes no argument, which the created reference to it has. -/
theorem faults_annotated_shadowed :
    ∃ program annotated, Source.read .typescript "interface Array\x7b\x7dlet x=[1]" = .ok program ∧
      Gloss.annotate (Facts.collect program .empty).1 program = .ok annotated ∧
      duplicates [] program.walk ++ program.walk.filterMap (reference?
        ((Facts.collect program .empty).1.interfaces.keys ++ declared program)) = [] ∧
      faults annotated = [shadowed] := by
  refine ⟨_, _, rfl, rfl, ?_, ?_⟩ <;> rfl

end Check

end TypeGloss
