import Mathlib.Data.List.Induction
import Mathlib.Data.List.Nodup
import TypeGloss.Proofs.Concrete

/-!
# Inferred shapes are well formed

An object never has two fields of one name. An array has at least one element shape, none twice, and
`any` only alone. Inference keeps to this at every depth, whatever was asked before, as long as the
names that are known have such shapes. Where no name is known, no shape holds a function, an
interface or the shape of no value. The fields of an object literal come in the order in which their
keys come first, and each has the shape of the last property with its key.
-/

namespace TypeGloss

namespace Table

variable {Key α : Type} [DecidableEq Key]

theorem ofPairs_concat (pairs : List (Key × α)) (pair : Key × α) :
    ofPairs (pairs ++ [pair]) = (ofPairs pairs).insert pair.1 pair.2 :=
  List.foldl_concat _ _ _ _

/-- Keys stand in the order in which they first come. -/
theorem keys_ofPairs [BEq Key] [LawfulBEq Key] (pairs : List (Key × α)) :
    (ofPairs pairs).keys = (pairs.map Prod.fst).eraseDups := by
  induction pairs using List.reverseRecOn with
  | nil => rfl
  | append_singleton pairs pair ih =>
    rw [ofPairs_concat, keys_insert, ih, List.map_append, List.map_singleton, List.eraseDups_append]
    by_cases old : pair.1 ∈ pairs.map Prod.fst
    · rw [if_pos (List.mem_eraseDups.mpr old)]
      simp [List.removeAll, old]
    · rw [if_neg (List.mem_eraseDups.not.mpr old)]
      simp [List.removeAll, old, List.eraseDups_cons]

theorem nodup_keys_ofPairs (pairs : List (Key × α)) : (ofPairs pairs).keys.Nodup := by
  induction pairs using List.reverseRecOn with
  | nil => exact List.nodup_nil
  | append_singleton pairs pair ih =>
    rw [ofPairs_concat]
    exact nodup_keys_insert ih

/-- In a table with different keys, every entry is found under its key. -/
theorem get?_of_mem {table : Table Key α} (distinct : table.keys.Nodup) {key : Key} {value : α}
    (mem : (key, value) ∈ table) : table.get? key = some value := by
  induction table with
  | nil => cases mem
  | cons entry rest ih =>
    obtain ⟨first, later⟩ := List.nodup_cons.mp distinct
    rw [get?]
    rcases List.mem_cons.mp mem with rfl | mem
    · exact if_pos rfl
    · have other : entry.1 ≠ key := fun same => first (same ▸ List.mem_map_of_mem mem)
      rw [if_neg other]
      exact ih later mem

/-- Each key has the value that it was given last. -/
theorem exists_last_of_mem_ofPairs {pairs : List (Key × α)} {entry : Key × α}
    (mem : entry ∈ ofPairs pairs) :
    ∃ before after, pairs = before ++ entry :: after ∧ ∀ pair ∈ after, pair.1 ≠ entry.1 := by
  have found := get?_of_mem (nodup_keys_ofPairs pairs) mem
  clear mem
  induction pairs using List.reverseRecOn with
  | nil => cases found
  | append_singleton pairs pair ih =>
    rw [ofPairs_concat, get?_insert] at found
    split at found
    · rename_i same
      obtain rfl : pair = entry := Prod.ext same (Option.some.inj found)
      exact ⟨pairs, [], rfl, nofun⟩
    · rename_i other
      obtain ⟨before, after, rfl, last⟩ := ih found
      refine ⟨before, after ++ [pair], by simp, ?_⟩
      exact List.forall_mem_append.mpr ⟨last, List.forall_mem_singleton.mpr other⟩

end Table

namespace Shape

theorem nodup_distinct (elements : List Shape) : (distinct elements).Nodup := by
  induction elements with
  | nil => exact List.nodup_nil
  | cons first rest ih => exact List.nodup_cons.mpr ⟨by simp, ih.filter _⟩

theorem mem_partsOfFields {fields : List (Text × Shape)} {part : Shape} :
    part ∈ partsOfFields fields ↔ ∃ field ∈ fields, part ∈ field.2.parts := by
  induction fields with
  | nil => simp [partsOfFields]
  | cons field rest ih => simp [partsOfFields, ih]

theorem mem_partsOfAll {elements : List Shape} {part : Shape} :
    part ∈ partsOfAll elements ↔ ∃ element ∈ elements, part ∈ element.parts := by
  induction elements with
  | nil => simp [partsOfAll]
  | cons element rest ih => simp [partsOfAll, ih]

/-- A shape and all shapes inside it have a property. -/
def Throughout (property : Shape → Prop) (shape : Shape) : Prop :=
  ∀ part ∈ shape.parts, property part

instance (property : Shape → Prop) [DecidablePred property] : DecidablePred (Throughout property) :=
  fun shape => inferInstanceAs (Decidable (∀ part ∈ shape.parts, property part))

/-- What shapes without parts have, and objects and arrays have from the way they are made, shapes
that are made in this way have throughout. -/
theorem inherited_throughout {property : Shape → Prop} (any : property .any)
    (primitive : ∀ kind : Primitive, kind ≠ .void → property (.primitive kind))
    (object : ∀ fields, property (objectOf fields))
    (array : ∀ elements, property (arrayOf elements)) : Inherited (Throughout property) where
  any := List.forall_mem_singleton.mpr any
  primitive kind some := List.forall_mem_singleton.mpr (primitive kind some)
  object fields each := by
    refine List.forall_mem_cons.mpr ⟨object fields, fun part mem => ?_⟩
    obtain ⟨field, inside, mem⟩ := mem_partsOfFields.mp mem
    exact each field (Table.mem_of_mem_ofPairs inside) part mem
  array elements each := by
    have made := array elements
    obtain ⟨kept, shape, -, kinds⟩ := arrayOf_cases elements
    rw [shape] at made ⊢
    refine List.forall_mem_cons.mpr ⟨made, fun part mem => ?_⟩
    obtain ⟨element, inside, isPart⟩ := mem_partsOfAll.mp mem
    rcases kinds with rfl | rfl
    · obtain rfl := List.mem_singleton.mp inside
      obtain rfl := List.mem_singleton.mp isPart
      exact any
    · exact each element (mem_of_mem_distinct (List.mem_of_mem_filter inside)) part isPart

/-- An array has element shapes, none twice, and `any` only alone; an object has one field of a
name. Nothing is asked of what is inside. -/
def IsTidy : Shape → Prop
  | .array elements => elements ≠ [] ∧ elements.Nodup ∧ (.any ∈ elements → elements = [.any])
  | .object fields => (fields.map Prod.fst).Nodup
  | _ => True

instance : DecidablePred IsTidy
  | .array elements => inferInstanceAs (Decidable
      (elements ≠ [] ∧ elements.Nodup ∧ (.any ∈ elements → elements = [.any])))
  | .object fields => inferInstanceAs (Decidable (fields.map Prod.fst).Nodup)
  | .any | .primitive _ | .function _ _ | .interface _ => isTrue trivial

/-- A shape is tidy at every depth. -/
abbrev WellFormed : Shape → Prop := Throughout IsTidy

theorem isTidy_arrayOf (elements : List Shape) : (arrayOf elements).IsTidy := by
  obtain ⟨kept, shape, some, rfl | rfl⟩ := arrayOf_cases elements
  · rw [shape]
    exact ⟨some, List.nodup_singleton _, fun _ => rfl⟩
  · rw [shape]
    refine ⟨some, (nodup_distinct elements).filter _, fun mem => ?_⟩
    exact absurd rfl (of_decide_eq_true (List.mem_filter.mp mem).2)

theorem inherited_wellFormed : Inherited WellFormed :=
  inherited_throughout trivial (fun _ _ => trivial) Table.nodup_keys_ofPairs isTidy_arrayOf

/-- The shape of a value: no function, no interface and not the shape of no value. -/
def IsValue : Shape → Prop
  | .primitive .void | .function .. | .interface _ => False
  | _ => True

theorem isValue_iff {shape : Shape} :
    shape.IsValue ↔ shape ≠ .void ∧ (∀ params result, shape ≠ .function params result) ∧
      ∀ name, shape ≠ .interface name := by
  cases shape with
  | primitive kind => cases kind <;> simp [IsValue, void]
  | _ => simp [IsValue, void]

theorem inherited_value : Inherited (Throughout IsValue) := by
  refine inherited_throughout trivial (fun kind some => ?_) (fun _ => trivial) fun elements => ?_
  · cases kind
    case void => exact some rfl
    all_goals trivial
  · obtain ⟨kept, shape, -⟩ := arrayOf_cases elements
    rw [shape]
    trivial

end Shape

/-- The key of a property. -/
def Node.key? : Node → Option Text
  | .property _ key _ _ => some key.propertyKey
  | _ => none

namespace Inference

/-- The key of a property, with the shape of its value. -/
def plainField? (context : Context) : Node → Option (Text × Shape)
  | .property _ key value _ => some (key.propertyKey, plain context value)
  | _ => none

theorem plainFields_eq (context : Context) (properties : List Node) :
    plainFields context properties = properties.filterMap (plainField? context) := by
  induction properties with
  | nil => rfl
  | cons property rest ih =>
    cases property with
    | property => rw [plainFields, List.filterMap_cons_some (by rfl), ih]
    | _ => exact ih

theorem key?_eq (context : Context) (property : Node) :
    property.key? = (plainField? context property).map Prod.fst := by
  cases property <;> rfl

theorem map_fst_plainFields (context : Context) (properties : List Node) :
    (plainFields context properties).map Prod.fst = properties.filterMap Node.key? := by
  rw [plainFields_eq, List.map_filterMap]
  exact List.filterMap_congr fun property _ => (key?_eq context property).symm

/-- A field of an object literal comes from the last property with its key. -/
theorem exists_last_property {context : Context} {properties : List Node} {field : Text × Shape}
    (mem : field ∈ Table.ofPairs (plainFields context properties)) :
    ∃ before loc key value shorthand after,
      properties = before ++ .property loc key value shorthand :: after ∧
        key.propertyKey = field.1 ∧ (∀ later ∈ after, later.key? ≠ some field.1) ∧
          field.2 = plain context value := by
  obtain ⟨pairs, laterPairs, split, last⟩ := Table.exists_last_of_mem_ofPairs mem
  rw [plainFields_eq] at split
  obtain ⟨front, back, rfl, -, found⟩ := List.filterMap_eq_append_iff.mp split
  obtain ⟨skipped, property, after, rfl, -, isField, rfl⟩ := List.filterMap_eq_cons_iff.mp found
  cases property with
  | property loc key value shorthand =>
    obtain rfl := Option.some.inj isField
    refine ⟨front ++ skipped, loc, key, value, shorthand, after, by simp, rfl, ?_, rfl⟩
    intro later inside same
    rw [key?_eq context] at same
    obtain ⟨pair, isPair, sameKey⟩ := Option.map_eq_some_iff.mp same
    exact last pair (List.mem_filterMap.mpr ⟨later, inside, isPair⟩) sameKey
  | _ => cases isField

/-- Whatever was asked before, every expression has a well formed shape where the names that are
known have one, and a shape of values only where no name is known. An object literal has a field for
each key, in the order in which the keys first come, with the shape of the last property that has
the key. -/
theorem typeOf_wellFormed (history : List Request) (context : Context) :
    let cache := (Request.serveAll history .empty).2
    ((∀ name shape, context.get? name = some shape → shape.WellFormed) →
      ∀ node, (typeOf context node cache).1.WellFormed) ∧
    (∀ node, ∀ part ∈ (typeOf [] node cache).1.parts,
      part ≠ .void ∧ (∀ params result, part ≠ .function params result) ∧
        ∀ name, part ≠ .interface name) ∧
    ∀ loc wrapped properties, ∃ fields,
      (typeOf context (.object loc wrapped properties) cache).1 = .object fields ∧
        fields.map Prod.fst = (properties.filterMap Node.key?).eraseDups ∧
        ∀ field ∈ fields, ∃ before loc key value shorthand after,
          properties = before ++ .property loc key value shorthand :: after ∧
            key.propertyKey = field.1 ∧ (∀ later ∈ after, later.key? ≠ some field.1) ∧
              field.2 = (typeOf context value cache).1 := by
  intro cache
  have sound : cache.Sound := (Request.serveAll_sound history Cache.sound_empty).2
  have gives (context : Context) (node : Node) :
      (typeOf context node cache).1 = plain context node :=
    (typeOf_gives context node sound).shape_eq
  refine ⟨fun known node => ?_, fun node part mem => ?_, fun loc wrapped properties => ?_⟩
  · rw [gives]
    exact plain_inherits Shape.inherited_wellFormed known node
  · rw [gives] at mem
    exact Shape.isValue_iff.mp (plain_inherits Shape.inherited_value (by nofun) node part mem)
  · rw [gives, plain]
    refine ⟨_, rfl, ?_, fun field mem => ?_⟩
    · rw [← map_fst_plainFields context]
      exact Table.keys_ofPairs _
    · simp only [gives]
      exact exists_last_property mem

/-- A key that comes three times, a name with a shape of its own and an empty array. -/
theorem typeOf_wellFormed_repeated :
    let one := Node.number .synthetic false "1"
    let field (key : Text) (value : Node) : Node :=
      .property .synthetic (.identifier .synthetic false key .absent) value false
    let known := Node.identifier .synthetic false "p" .absent
    let context : Context := [("p", .array [.string])]
    let literal := Node.object .synthetic false
      [field "a" one, field "b" (.array .synthetic false []), field "a" known,
        field "c" (.array .synthetic false [known, one, known])]
    (typeOf context literal .empty).1 = .object [("a", .array [.string]), ("b", .array [.any]),
        ("c", .array [.array [.string], .number])] ∧
      (typeOf context literal .empty).1.WellFormed := by
  intro one field known context literal
  refine ⟨by decide +kernel, (typeOf_wellFormed [] context).1 (fun name shape found => ?_) literal⟩
  obtain rfl : shape = .array [.string] := by
    have mem := Table.mem_of_get? found
    simpa [context] using congrArg Prod.snd (List.mem_singleton.mp mem)
  decide

end Inference

end TypeGloss
