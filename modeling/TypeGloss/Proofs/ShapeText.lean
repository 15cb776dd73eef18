import TypeGloss.Gloss.TypeSyntax
import TypeGloss.Proofs.Printable
import TypeGloss.Shape.Render

/-!
# The two texts of a shape

A shape has a text of its own, which reports show, and the text of its type syntax, which annotated
programs show. In a pretty layout the two are the same. A shape has type syntax unless an array
without element shapes or an interface that is not known stands somewhere inside it.
-/

namespace TypeGloss

open Grammar (TypeTree)

namespace Shape

/-- Whether a shape can be written as a type, whatever is inside it. -/
def isWritable (known : List Text) : Shape → Bool
  | .array elements => !elements.isEmpty
  | .interface name => known.contains name
  | _ => true

/-- An outcome that fails exactly if one of some shapes cannot be written. -/
inductive Writes (known : List Text) {Out : Type} (shown : Out → Prop) (shapes : List Shape) :
    Except Mismatch Out → Prop
  | written (all : ∀ shape ∈ shapes, shape.isWritable known = true) {out : Out}
      (holds : shown out) : Writes known shown shapes (.ok out)
  | refused {shape : Shape} (mem : shape ∈ shapes) (unwritable : shape.isWritable known = false)
      (mismatch : Mismatch) : Writes known shown shapes (.error mismatch)

namespace Writes

variable {known : List Text} {Out Next : Type} {shown : Out → Prop} {follows : Next → Prop}
  {first second : List Shape} {outcome : Except Mismatch Out}

theorem bind (writes : Writes known shown first outcome) {next : Out → Except Mismatch Next}
    (writesNext : ∀ out, shown out → Writes known follows second (next out)) :
    Writes known follows (first ++ second) (outcome >>= next) := by
  cases writes with
  | refused mem unwritable mismatch =>
    exact .refused (List.mem_append_left _ mem) unwritable mismatch
  | @written all out holds =>
    change Writes known follows (first ++ second) (next out)
    have writesLater := writesNext out holds
    generalize next out = later at writesLater ⊢
    cases writesLater with
    | written allNext holdsNext =>
      exact .written (List.forall_mem_append.mpr ⟨all, allNext⟩) holdsNext
    | refused mem unwritable mismatch =>
      exact .refused (List.mem_append_right _ mem) unwritable mismatch

/-- A last step that always succeeds writes nothing more. -/
theorem map (writes : Writes known shown first outcome) {result : Out → Next}
    (holdsNext : ∀ out, shown out → follows (result out)) :
    Writes known follows first (outcome >>= fun out => .ok (result out)) := by
  rw [← List.append_nil first]
  exact writes.bind fun out holds => .written (List.forall_mem_nil _) (holdsNext out holds)

/-- A shape that can be written itself adds nothing that cannot be. -/
theorem cons (writes : Writes known shown first outcome) {shape : Shape}
    (writable : shape.isWritable known = true) : Writes known shown (shape :: first) outcome := by
  cases writes with
  | written all holds => exact .written (List.forall_mem_cons.mpr ⟨writable, all⟩) holds
  | refused mem unwritable mismatch =>
    exact .refused (List.mem_cons_of_mem _ mem) unwritable mismatch

theorem ok_iff (writes : Writes known shown first outcome) :
    (∃ out, outcome = .ok out) ↔ ∀ shape ∈ first, shape.isWritable known = true := by
  cases writes with
  | @written all out holds => exact iff_of_true ⟨out, rfl⟩ all
  | refused mem unwritable =>
    exact iff_of_false nofun fun all => by simp [all _ mem] at unwritable

theorem holds {out : Out} (writes : Writes known shown first (.ok out)) : shown out := by
  cases writes with
  | written _ holds => exact holds

end Writes

/-- Type syntax with the text of a shape. -/
structure Shows (shape : Shape) (type : Node) : Prop where
  tree : TypeTree (fun _ => True) (fun _ => True) .type type
  text : ∀ depth, Print.node .pretty depth [] type = shape.render
  grouped : ∀ t, Print.unionMember type t = shape.grouped t

/-- A member of a type body with the text of a field. -/
def ShowsField (field : Text × Shape) (member : Node) : Prop :=
  ∃ type, member = .propertySignature .synthetic (.name field.1) type false ∧ field.2.Shows type

/-- A parameter of a function type with the text of a named shape. -/
def ShowsParam (param : Text × Shape) (binding : Node) : Prop :=
  ∃ type, binding = .identifier .synthetic false param.1 type ∧ param.2.Shows type

section Text

variable (depth : Nat)

theorem nodes_fields {fields : List (Text × Shape)} {members : List Node}
    (shows : List.Forall₂ ShowsField fields members) :
    Print.nodes .pretty depth members = renderFields fields := by
  induction shows with
  | nil => rfl
  | @cons field member fields members here _ ih =>
    obtain ⟨type, rfl, shows⟩ := here
    rw [Print.nodes, ih, renderFields, Print.node, shows.text]
    simp [Print.memberHead, MemberKey.text, Layout.space, Text.ofString]

theorem bindings_params {params : List (Text × Shape)} {bindings : List Node}
    (shows : List.Forall₂ ShowsParam params bindings) :
    Print.bindings .pretty depth bindings = renderParams params := by
  induction shows with
  | nil => rfl
  | @cons param binding params bindings here _ ih =>
    obtain ⟨type, rfl, shows⟩ := here
    rw [Print.bindings, ih, renderParams, Print.binding, shows.text, Print.ascription,
      shows.tree.isAbsent]
    simp [Layout.space, Text.ofString]

theorem zipWith_unionMember {shapes : List Shape} {types : List Node}
    (shows : List.Forall₂ Shows shapes types) :
    types.zipWith Print.unionMember (Print.nodes .pretty depth types) = renderMembers shapes := by
  induction shows with
  | nil => rfl
  | cons here _ ih =>
    rw [Print.nodes, List.zipWith_cons_cons, ih, renderMembers, here.text, here.grouped]

end Text

theorem shows_object {fields : List (Text × Shape)} {members : List Node}
    (shows : List.Forall₂ ShowsField fields members) :
    Shows (.object fields) (.typeLiteral .synthetic members) where
  tree := .literal fun member mem => by
    obtain ⟨field, -, type, rfl, shows⟩ := exists_of_forall₂ shows.flip mem
    exact .signature trivial shows.tree
  text depth := by
    rw [Print.node, nodes_fields depth shows]
    cases fields <;> rfl
  grouped _ := rfl

theorem shows_function {params : List (Text × Shape)} {bindings : List Node} {result : Shape}
    {type : Node} (shows : List.Forall₂ ShowsParam params bindings)
    (showsResult : result.Shows type) :
    Shows (.function params result) (.functionType .synthetic bindings type) where
  tree := by
    refine .function (fun binding mem => ?_) showsResult.tree
    obtain ⟨param, -, type, rfl, shows⟩ := exists_of_forall₂ shows.flip mem
    exact .binding trivial shows.tree
  text depth := by
    rw [Print.node, bindings_params depth shows, showsResult.text, render]
    simp [Layout.parens, Layout.commas, Layout.space, Text.ofString]
  grouped _ := rfl

theorem shows_array {shapes : List Shape} {types : List Node} (some : shapes ≠ [])
    (shows : List.Forall₂ Shows shapes types) :
    Shows (.array shapes) (.typeReference .synthetic "Array" [unionSyntax types]) where
  tree := by
    have each : ∀ type ∈ types, TypeTree (fun _ => True) (fun _ => True) .type type :=
      fun type mem => by
        obtain ⟨shape, -, shows⟩ := exists_of_forall₂ shows.flip mem
        exact shows.tree
    refine .reference trivial (List.forall_mem_singleton.mpr ?_)
    rcases shows with _ | ⟨here, _ | _⟩
    · exact absurd rfl some
    · exact here.tree
    · exact .union (by simp) each
  text depth := by
    have members := zipWith_unionMember depth shows
    rcases shows with _ | ⟨here, _ | _⟩
    · exact absurd rfl some
    · simp [Print.node, Print.nodes, unionSyntax, here.text, render, Layout.commas, Text.join,
        Text.ofString]
    · rw [Print.node, if_neg (by simp), Print.nodes, Print.nodes, unionSyntax, Print.node, members]
      · simp [render, Layout.commas, Layout.space, Text.join, Text.ofString]
      · simp
  grouped _ := rfl

mutual

/-- The type syntax of a shape has its text, and is refused exactly if a part cannot be written. -/
theorem toSyntax_writes (known : List Text) :
    ∀ shape : Shape, Writes known shape.Shows shape.parts (shape.toSyntax known)
  | .any => .written (by simp [parts, isWritable]) ⟨.word trivial, fun _ => rfl, fun _ => rfl⟩
  | .primitive kind =>
    .written (by simp [parts, isWritable]) ⟨.word trivial, fun _ => rfl, fun _ => rfl⟩
  | .interface name => by
    by_cases mem : known.contains name = true
    · rw [toSyntax, if_pos mem]
      exact .written (by simpa [parts, isWritable] using mem)
        ⟨.reference trivial (List.forall_mem_nil _), fun _ => rfl, fun _ => rfl⟩
    · rw [toSyntax, if_neg mem]
      exact .refused (List.mem_singleton_self _) (by simpa [isWritable] using mem) _
  | .object fields => by
    rw [toSyntax, parts]
    exact ((memberSyntax_writes known fields).map fun _ shows => shows_object shows).cons rfl
  | .array [] => .refused (List.mem_singleton_self _) rfl _
  | .array (first :: rest) => by
    rw [toSyntax, parts, partsOfAll]
    refine ((toSyntax_writes known first).bind fun head showsHead => ?_).cons rfl
    exact (toSyntaxAll_writes known rest).map fun tail showsTail =>
      shows_array (by simp) (.cons showsHead showsTail)
  | .function params result => by
    rw [toSyntax, parts]
    refine ((paramSyntax_writes known params).bind fun bindings shows => ?_).cons rfl
    exact (toSyntax_writes known result).map fun type showsResult =>
      shows_function shows showsResult

theorem toSyntaxAll_writes (known : List Text) :
    ∀ shapes : List Shape,
      Writes known (List.Forall₂ Shows shapes) (partsOfAll shapes) (toSyntaxAll known shapes)
  | [] => .written (List.forall_mem_nil _) .nil
  | shape :: rest => by
    rw [toSyntaxAll, partsOfAll]
    refine (toSyntax_writes known shape).bind fun head shows => ?_
    exact (toSyntaxAll_writes known rest).map fun tail showsRest => .cons shows showsRest

theorem memberSyntax_writes (known : List Text) :
    ∀ fields : List (Text × Shape), Writes known (List.Forall₂ ShowsField fields)
      (partsOfFields fields) (memberSyntax known fields)
  | [] => .written (List.forall_mem_nil _) .nil
  | (key, shape) :: rest => by
    rw [memberSyntax, partsOfFields]
    refine (toSyntax_writes known shape).bind fun head shows => ?_
    exact (memberSyntax_writes known rest).map fun tail showsRest =>
      .cons ⟨head, rfl, shows⟩ showsRest

theorem paramSyntax_writes (known : List Text) :
    ∀ params : List (Text × Shape), Writes known (List.Forall₂ ShowsParam params)
      (partsOfFields params) (paramSyntax known params)
  | [] => .written (List.forall_mem_nil _) .nil
  | (name, shape) :: rest => by
    rw [paramSyntax, partsOfFields]
    refine (toSyntax_writes known shape).bind fun head shows => ?_
    exact (paramSyntax_writes known rest).map fun tail showsRest =>
      .cons ⟨head, rfl, shows⟩ showsRest

end

theorem isWritable_iff {known : List Text} {shape : Shape} :
    shape.isWritable known = true ↔
      shape ≠ .array [] ∧ ∀ name, shape = .interface name → name ∈ known := by
  cases shape <;> simp [isWritable]

/-- A shape has type syntax exactly if no array without element shapes and no unknown interface is
inside it. The type syntax can then be printed, and its pretty text is that of the shape. -/
theorem toSyntax_pretty (known : List Text) (shape : Shape) :
    ((∃ type, shape.toSyntax known = .ok type) ↔
      ∀ part ∈ shape.parts, part ≠ .array [] ∧ ∀ name, part = .interface name → name ∈ known) ∧
    ∀ type, shape.toSyntax known = .ok type →
      (Print.placed type).asType = none ∧
        ∀ depth, Print.node .pretty depth [] type = shape.render := by
  have writes := toSyntax_writes known shape
  refine ⟨writes.ok_iff.trans (forall₂_congr fun _ _ => isWritable_iff), fun type written => ?_⟩
  have shows := (written ▸ writes).holds
  exact ⟨Print.printable_type shows.tree, shows.text⟩

/-- A type that needs parentheses and quotes has the same text as its shape. -/
theorem toSyntax_pretty_union :
    let shape : Shape := .array [.function [("a", .primitive .number)] (.primitive .void),
      .object [("b c", .interface "P")]]
    ∃ type, shape.toSyntax ["P"] = .ok type ∧
      Print.node .pretty 0 [] type = "Array<((a: number) => void) | \x7b 'b c': P \x7d>" := by
  intro shape
  have pretty := toSyntax_pretty ["P"] shape
  obtain ⟨type, written⟩ := pretty.1.mpr (by simp [shape, parts, partsOfAll, partsOfFields])
  exact ⟨type, written, (pretty.2 type written).2 0⟩

end Shape

end TypeGloss
