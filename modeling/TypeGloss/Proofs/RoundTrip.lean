import TypeGloss.Proofs.PrintedTokens
import TypeGloss.Proofs.ReadBack.Tree

/-!
# Printed programs are read back

A program that was read, holds no type syntax and has no reserved word as an operand is printed as a
text from which the same program is read, up to locations. A reserved word is read as an operand
only at the start of a line, and is printed in the middle of one: such a program is not read back.
-/

namespace TypeGloss

open Grammar (Fits)

namespace Node

theorem slots_unplaced (node : Node) : node.unplaced.slots = node.slots.map unplaced := by
  cases node <;> simp [slots]

/-- A walk through a tree without its locations. -/
theorem walk_unplaced (root : Node) : root.unplaced.walk = root.walk.map unplaced :=
  walk_map slots_unplaced isAbsent_unplaced root

theorem ownFault?_unplaced (node : Node) : node.unplaced.ownFault? = node.ownFault? := by
  cases node <;> try rfl
  case propertySignature loc key type optional => cases key <;> rfl

theorem evaluationOrder_unplaced {α : Type} (node : Node) (values : List α) :
    node.unplaced.evaluationOrder values = node.evaluationOrder values := by
  cases node <;> try rfl
  case call => cases values <;> rfl
  case construction => cases values <;> rfl
  case ifStatement => match values with
    | [] | [_] | [_, _] | [_, _, _] | _ :: _ :: _ :: _ :: _ => rfl

/-- Whether literals have values does not depend on where they stand. -/
theorem literalFault?_unplaced (root : Node) :
    root.unplaced.literalFault? = root.literalFault? := by
  induction root using slots_induction with
  | node root ih =>
    rw [literalFault?, literalFault?, fold_eq, fold_eq _ root, ownFault?_unplaced,
      evaluationOrder_unplaced, slots_unplaced, List.map_map]
    have same := List.map_congr_left ih
    exact congrArg (fun faults => (root.ownFault? :: root.evaluationOrder faults).findSome? id) same

theorem isTyped_unplaced (node : Node) : node.unplaced.isTyped = node.isTyped := by
  cases node <;> rfl

/-- A test that ignores locations fails throughout a tree if it does so without them. -/
theorem forall_walk_unplaced {test : Node → Bool}
    (same : ∀ node : Node, test node.unplaced = test node) {root : Node} :
    (∀ node ∈ root.unplaced.walk, test node = false) ↔ ∀ node ∈ root.walk, test node = false := by
  simp only [walk_unplaced, List.forall_mem_map, same]

end Node

namespace Source

variable {dialect : Dialect} {source : Text} {program : Node}

theorem firstTypeSyntax?_eq_none :
    firstTypeSyntax? program = none ↔ ∀ node ∈ program.walk, node.isTyped = false := by
  rw [firstTypeSyntax?, List.find?_eq_none]
  refine forall₂_congr fun node _ => ?_
  cases node <;> simp [Node.isTyped, Node.isType, Node.interfaceName?]

/-- Tokens that make up a program with proper literals and allowed type syntax are read. -/
theorem Reads.read {ts : List Token} (reads : Reads dialect source ts program) :
    Source.read dialect source = .ok program := by
  have made : Parse.program (Token.refine ts) = .ok program :=
    (Parse.run_eq_ok_iff ..).mpr reads.parsed
  have none : (if dialect.allowsTypes then none else firstTypeSyntax? program) = none := by
    split
    · rfl
    · exact reads.allowed (by simp_all)
  simp only [Source.read, tokens, Token.stream, reads.scanned, Except.map, bind, Except.bind, tree,
    made, check, reads.literals, checkDialect, none]

end Source

/-- The parser does the same with tokens that have lost their locations. -/
theorem read?_refine_unplaced (ts : List Token) :
    (Parse.read? Parse.start (Token.refine ts)).map Node.unplaced =
      (Parse.read? Parse.start (Token.refine (ts.map Token.unplaced))).map Node.unplaced := by
  have twice : ((Token.refine ts).map Token.unplaced).map Token.unplaced =
      (Token.refine ts).map Token.unplaced := by
    rw [List.map_map]
    rfl
  have again := Parse.read?_unplaced Parse.start ((Token.refine ts).map Token.unplaced)
  rw [twice] at again
  rw [← Parse.read?_unplaced, again, Token.refine_unplaced]

/-- The text of a tree without reserved words as operands is read as the same tree. -/
theorem Grammar.Fits.read_text {program : Node} (fits : Fits (.rendered False) .program program)
    (layout : Layout) (dialect : Dialect) (literals : program.literalFault? = none)
    (allowed : dialect.allowsTypes = false → ∀ node ∈ program.walk, node.isTyped = false) :
    ∃ again, Source.read dialect (Pieces.text (Pieces.node layout 0 program)) = .ok again ∧
      again.unplaced = program.unplaced := by
  obtain ⟨loc, body, rfl, read⟩ := fits.reads layout
  have symbols := fits.symbols_text layout 0
  rw [Token.symbols_eq] at symbols
  cases scanned : Token.scan (Pieces.text (Pieces.node layout 0 (.program loc body))) with
  | error =>
    rw [scanned] at symbols
    cases symbols
  | ok ts =>
    have plain : ts.map Token.unplaced =
        Pieces.tokens (Pieces.node layout 0 (.program loc body)) := by
      rw [scanned] at symbols
      exact Option.some.inj symbols
    have made : (Parse.read? Parse.start (Token.refine ts)).map Node.unplaced =
        some (Node.program loc body).unplaced := by
      rw [read?_refine_unplaced, plain, Token.refine, Token.insertTerminators,
        Token.markArrowParameters_eq, Token.markPropertyNames]
      have read := (Reader.read?_eq _ Reader.start).trans (read 0)
      exact congrArg (Option.map Node.unplaced) read |>.trans (by simp)
    obtain ⟨again, parsed, same⟩ := Option.map_eq_some_iff.mp made
    refine ⟨again, Source.Reads.read ⟨scanned, parsed, ?_, ?_⟩, same⟩
    · rw [← Node.literalFault?_unplaced, same, Node.literalFault?_unplaced, literals]
    · intro types
      rw [Source.firstTypeSyntax?_eq_none, ← Node.forall_walk_unplaced Node.isTyped_unplaced, same,
        Node.forall_walk_unplaced Node.isTyped_unplaced]
      exact allowed types

namespace Source

/-- A program without type syntax and without reserved words as operands is read back from its text,
in either layout and by any dialect: the text is that of the same program, up to locations. -/
theorem read_print (dialect second : Dialect) (layout : Layout) (source : Text) {program : Node}
    (read : Source.read dialect source = .ok program)
    (untyped : ∀ node ∈ program.walk, node.isTyped = false)
    (operands : ∀ node ∈ program.walk, ∀ operand ∈ node.operands, operand.isReserved = false) :
    ∃ text again, program.print layout = .ok text ∧ Source.read second text = .ok again ∧
      again.unplaced = program.unplaced := by
  obtain ⟨ts, reads⟩ := reads_of_read read
  have bare := Grammar.bare_of_fits reads.fits
    (Node.every_of_walk (p := (·.isTyped = false)) rfl program untyped)
  have plain : program.Every (Grammar.Plain False) :=
    Node.every_of_walk ⟨⟨rfl, rfl, nofun⟩, .inr nofun⟩ program fun node visited =>
      ⟨Node.walk_of_every bare node visited, .inr (operands node visited)⟩
  have fits : Fits (.rendered False) .program program := reads.fits.withoutTypes plain And.left
  obtain ⟨again, readAgain, same⟩ :=
    fits.read_text layout second reads.literals fun _ => untyped
  refine ⟨_, again, Transpiled.print_of_fits layout reads.fits, ?_, same⟩
  rwa [(Print.pieced program reads.fits.chained).text]

theorem read_print_conditional :
    ∃ program text again, Source.read .typescript "a?b>\nc:d" = .ok program ∧
      program.print .compact = .ok text ∧ Source.read .typescript text = .ok again ∧
      again.unplaced = program.unplaced := by
  obtain ⟨program, read, untyped, operands⟩ : ∃ program,
      Source.read .typescript "a?b>\nc:d" = .ok program ∧
      program.walk.all (!·.isTyped) = true ∧
      program.walk.all (fun node => node.operands.all (!·.isReserved)) = true := ⟨_, rfl, rfl, rfl⟩
  obtain ⟨text, again, printed, readAgain, same⟩ := read_print .typescript .typescript .compact _
    read (fun node visited => by simpa using List.all_eq_true.mp untyped node visited)
    (fun node visited operand mem => by
      simpa using List.all_eq_true.mp (List.all_eq_true.mp operands node visited) operand mem)
  exact ⟨program, text, again, read, printed, readAgain, same⟩

set_option maxRecDepth 4000 in
/-- A reserved word that starts a line behind `>` is read as an operand. In the printed text it
stands on the same line, and the text is no program. -/
theorem read_print_reserved :
    ¬ ∀ program, Source.read .typescript "a?b>\nif:c" = .ok program →
      (∀ node ∈ program.walk, node.isTyped = false) →
      ∃ text again, program.print .compact = .ok text ∧ Source.read .typescript text = .ok again ∧
        again.unplaced = program.unplaced := by
  obtain ⟨program, read, untyped, printed⟩ : ∃ program,
      Source.read .typescript "a?b>\nif:c" = .ok program ∧
      program.walk.all (!·.isTyped) = true ∧ program.print .compact = .ok "a?b>if:c;" :=
    ⟨_, rfl, rfl, rfl⟩
  obtain ⟨e, refused⟩ : ∃ e, Source.read .typescript "a?b>if:c;" = .error e := ⟨_, rfl⟩
  intro readsBack
  obtain ⟨text, again, isPrinted, readAgain, -⟩ := readsBack program read fun node visited => by
    simpa using List.all_eq_true.mp untyped node visited
  rw [Except.ok.inj (isPrinted.symm.trans printed), refused] at readAgain
  cases readAgain

end Source

end TypeGloss
