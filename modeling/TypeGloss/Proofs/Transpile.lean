import TypeGloss.Proofs.Printable
import TypeGloss.Proofs.RefillFits
import TypeGloss.Transpile

/-!
# Programs that are read have annotated texts

A program that was read still fits its grammar when types are put into its slots, and so do the
interfaces in front. Hence it is annotated and printed without failure.
-/

namespace TypeGloss

open Grammar (Fits TypeTree InterfaceTree)

namespace Gloss

variable {program : Node} {record : Record} {created : List Node} {R : Prop}

theorem refill_typeTree {W : Text → Prop} {K : MemberKey → Prop} {slot : Grammar.TypeSlot}
    {type : Node} (types : Types) (tree : TypeTree W K slot type) : refill types type = type :=
  refill_eq_self types (tree.every.imp fun node part =>
    ⟨isDeclaration_eq_false node (.inl part), isFunction_eq_false node (.inl part)⟩)

theorem refill_interfaceTree {W : Text → Prop} {K : MemberKey → Prop} {node : Node} (types : Types)
    (tree : InterfaceTree W K node) : refill types node = node :=
  refill_eq_self types (tree.every.imp fun node part =>
    ⟨isDeclaration_eq_false node (.inl part), isFunction_eq_false node (.inl part)⟩)

/-- Type syntax with certain names and any keys. -/
abbrev IsType (W : Text → Prop) : Node → Prop := TypeTree W (fun _ => True) .type

section Names

variable {W : Text → Prop} (words : ∀ t, Lexeme.isWordText t = true → W t)

include words

/-- After its slots are filled, a declaration has types. -/
theorem Puts.isType {types : Types} {known : List Text} {node : Node}
    (puts : Puts types (Filled known) (Filled known) node) (binds : Binds node)
    (names : ∀ name ∈ known, W name) :
    Puts types (fun _ => IsType W) (fun _ => IsType W) node := by
  have isType (old new : Node) (filled : IsSlot old ∧ Filled known old new) : IsType W new := by
    obtain ⟨slot, ⟨-, created⟩ | ⟨present, rfl⟩⟩ := filled
    · exact created.typeTree_of_names words names
    · rcases slot with rfl | tree
      · cases present
      · exact tree.mono words fun _ _ => trivial
  exact (puts.beside binds).mono _ isType isType

/-- Types may be put into the slots of a tree that was read. -/
theorem suits_isType (types : Types) :
    Grammar.Suits (.source R) (.withTypes W (fun _ => True) R) types
      (Puts types (fun _ => IsType W) (fun _ => IsType W)) where
  wrap e puts := by cases e <;> exact puts
  annotated _ annotated := by
    rw [refill_typeTree types annotated.2]
    exact ⟨annotated.1, annotated.2.mono words fun _ _ => trivial⟩
  result _ tree := by
    rw [refill_typeTree types tree]
    exact tree.mono words fun _ _ => trivial
  interface _ tree := by
    rw [refill_interfaceTree types tree]
    obtain ⟨isName, each⟩ := tree
    exact .mk (words _ isName) fun m mem => (each m mem).mono words fun _ _ => trivial
  reserved allowed _ _ _ _ _ _ := .inl allowed
  puts puts := by
    refine puts.mono types (fun _ new tree loc name old bound => .typed ⟨?_, tree⟩)
      fun _ new tree => .some tree
    cases bound with
    | plain isName => exact isName.1
    | typed annotated => exact annotated.1

/-- The annotated program fits the grammar with types, and the names of types are words if those of
the interfaces are. -/
theorem Glossed.fits_of_names (glossed : Glossed program record created)
    (fits : Fits (.source R) .program program) (names : ∀ name ∈ record.interfaces.keys, W name) :
    Fits (.withTypes W (fun _ => True) R) .program (prepend created
      (refill (typesOf (Facts.reserved program) record.interfaces) program)) := by
  have puts : program.Every (Puts (typesOf (Facts.reserved program) record.interfaces)
      (fun _ => IsType W) (fun _ => IsType W)) :=
    Node.every_of_walk trivial program fun node visited =>
      (Node.walk_of_every glossed.puts node visited).isType words
        (Node.walk_of_every glossed.binds node visited) names
  have filled := fits.refill (suits_isType words _) puts
  cases fits with
  | program =>
    rw [refill_of_other _ rfl rfl] at filled ⊢
    cases filled with
    | program each =>
      refine .program (List.forall_mem_append.mpr ⟨fun node mem => ?_, each⟩)
      obtain ⟨entry, listed, -, members, rfl, member⟩ :=
        exists_of_forall₂ glossed.declares.flip mem
      exact .interface (.mk (names _ (List.mem_map_of_mem listed))
        fun m mem => (member m mem).typeTree_of_names words names)

end Names

/-- The annotated program fits the grammar with types. -/
theorem Glossed.fits (glossed : Glossed program record created)
    (fits : Fits (.source R) .program program) :
    Fits (.withTypes (fun _ => True) (fun _ => True) R) .program (prepend created
      (refill (typesOf (Facts.reserved program) record.interfaces) program)) :=
  glossed.fits_of_names (fun _ _ => trivial) fits fun _ _ => trivial

end Gloss

namespace Transpiled

open Gloss

/-- A program that fits has no fault in print. -/
theorem print_of_fits {W : Text → Prop} {K : MemberKey → Prop} {R : Prop} {program : Node}
    (layout : Layout) (fits : Fits (.withTypes W K R) .program program) :
    program.print layout = .ok (Print.node layout 0 [] program) := by
  have printable : Print.unprintable? program = none := Print.printable_of_fits fits
  rw [Node.print, printable]

/-- Every program that is read has an annotated text, in either layout and whatever is in memory
from earlier requests: its record annotates it, and the annotated program can be printed. -/
theorem ofSource_complete (dialect : Dialect) (layout : Layout) (source : Text)
    (history : List Inference.Request) {program : Node}
    (read : Source.read dialect source = .ok program) :
    let memory := (Inference.Request.serveAll history .empty).2
    ∃ annotated text,
      annotate (Facts.collect program memory).1 program = .ok annotated ∧
      annotated.print layout = .ok text ∧
      ofSource dialect layout source memory =
        .ok ({ program, record := (Facts.collect program memory).1, annotated, text },
          (Facts.collect program memory).2) := by
  intro memory
  have sound := (Inference.Request.serveAll_sound history Cache.sound_empty).2
  obtain ⟨ts, reads⟩ := Source.reads_of_read read
  obtain ⟨created, glossed⟩ := glossed_of_binds sound (binds_of_fits reads.fits)
  have printed := print_of_fits layout (glossed.fits reads.fits)
  refine ⟨_, _, glossed.annotated, printed, ?_⟩
  simp only [ofSource, read, ofProgram, glossed.annotated, printed, memory]
  rfl

theorem ofSource_complete_literal :
    ∃ program annotated text, Source.read .typescript "let a={b:[1]}" = .ok program ∧
      annotate (Facts.collect program .empty).1 program = .ok annotated ∧
      annotated.print .compact = .ok text := by
  obtain ⟨program, read⟩ : ∃ program, Source.read .typescript "let a={b:[1]}" = .ok program :=
    ⟨_, rfl⟩
  obtain ⟨annotated, text, isAnnotated, printed, -⟩ :=
    ofSource_complete .typescript .compact "let a={b:[1]}" [] read
  exact ⟨program, annotated, text, read, isAnnotated, printed⟩

end Transpiled

end TypeGloss
