import TypeGloss.Proofs.Condensed
import TypeGloss.Proofs.Verified

/-!
# Both layouts print the same program

The two layouts of a program that was read, and of its annotated form, are scanned into the same
tokens, but for the ends of lines and for the semicolons directly before closing braces; or neither
is scanned, because a quoted key holds a line feed. The pieces of both layouts agree at every node.
-/

namespace TypeGloss

open Grammar (Fits TypeTree TypeSlot InterfaceTree)

namespace Pieces

/-- No type ends with a semicolon, so it does not matter whether a closing brace follows it. -/
theorem blind_typeTree {W : Text → Prop} {K : MemberKey → Prop} {slot : TypeSlot} {type : Node}
    (tree : TypeTree W K slot type) (layout : Layout) (depth : Nat) :
    Blind (node layout depth type) := by
  have paren (ps : List Piece) : Blind (parens ps) :=
    Blind.append (leftParen :: ps) (.token _ (by decide) (by decide))
  induction tree with
  | word => exact .name _
  | reference =>
    simp only [node]
    split
    · exact .name _
    · exact Blind.append _ (.token _ (by decide) (by decide))
  | @union loc members some each ih =>
    simp only [node, nodes_eq_map, List.zipWith_map_right, List.zipWith_self]
    refine .join _ (by simpa using some) (List.forall_mem_map.mpr fun member mem => ?_)
    have inner := ih member mem
    cases member <;> first | exact inner | exact paren _
  | array => exact Blind.append _ (.cons leftBracket (.token _ (by decide) (by decide)))
  | literal =>
    have brace : Blind [rightBrace] := .token _ (by decide) (by decide)
    simp only [node, typeLiteral]
    split
    · exact brace.cons leftBrace
    · cases layout
      · exact brace.append _
      · exact (brace.cons .blank).append _
  | function each inner ihEach ih => exact ih.append _
  | signature isKey inner ih => exact ih.append _
  | binding => exact .name _

/-- In both layouts the pieces of a node amount to the same. -/
structure LaidOut (n : Node) : Prop where
  node : ∀ depth, Agree (node .compact depth n) (node .pretty depth n)
  binding : ∀ depth, Agree (binding .compact depth n) (binding .pretty depth n)
  blockOf : ∀ depth, Agree (blockOf .compact depth n) (blockOf .pretty depth n)

/-- A node whose members, if it is a type literal, do not depend on a closing brace behind them. -/
def EndsMembers : Node → Prop
  | .typeLiteral _ members => ∀ m ∈ members, ∀ layout depth, Blind (node layout depth m)
  | _ => True

section Lists

variable {ns : List Node} (each : ∀ n ∈ ns, LaidOut n) (depth : Nat)

include each

theorem nodes_agree :
    List.Forall₂ Agree (ns.map (node .compact depth)) (ns.map (node .pretty depth)) :=
  Agree.map fun n mem => (each n mem).node depth

theorem bindings_agree :
    List.Forall₂ Agree (ns.map (binding .compact depth)) (ns.map (binding .pretty depth)) :=
  Agree.map fun n mem => (each n mem).binding depth

theorem sealed_agree :
    List.Forall₂ Agree (ns.zipWith sealed (ns.map (node .compact depth)))
      (ns.zipWith sealed (ns.map (node .pretty depth))) := by
  simp only [List.zipWith_map_right, List.zipWith_self]
  exact Agree.map fun n mem => ((each n mem).node depth).sealed n

theorem block_agree :
    Agree (block .compact depth ns (ns.map (node .compact (depth + 1))))
      (block .pretty depth ns (ns.map (node .pretty (depth + 1)))) :=
  .braced depth (sealed_agree each (depth + 1))

end Lists

section Parts

variable {root : Node} (all : ∀ slot ∈ root.slots, LaidOut slot) (depth : Nat)

include all

theorem binding_agree : Agree (binding .compact depth root) (binding .pretty depth root) := by
  cases root with
  | identifier loc isWrapped t typing =>
    exact .cons _ (((all typing (by simp [Node.slots])).node depth).ascription typing)
  | defaultParam loc target value =>
    have bound := (all target (by simp [Node.slots])).binding depth
    have given := (all value (by simp [Node.slots])).node depth
    exact bound.append (given.valuePart value)
  | _ => exact .refl _

theorem blockOf_agree : Agree (blockOf .compact depth root) (blockOf .pretty depth root) := by
  cases root with
  | block loc statements | program loc statements =>
    simp only [blockOf, nodes_eq_map]
    exact block_agree all depth
  | interfaceDeclaration loc name members =>
    simp only [blockOf, nodes_eq_map]
    exact block_agree (fun m mem => all m (by simp [Node.slots, mem])) depth
  | _ => exact .refl _

theorem node_agree (ends : EndsMembers root) :
    Agree (node .compact depth root) (node .pretty depth root) := by
  cases root with
  | absent | keywordType | identifier | number | string | boolean | null | template | this
  | breakStatement | continueStatement | emptyStatement =>
    exact .refl _
  | typeReference loc t arguments =>
    simp only [node, nodes_eq_map]
    split
    · exact .refl _
    · exact .append (.cons _ (.cons _ (.commas (nodes_agree all depth)))) (.refl _)
  | unionType loc members =>
    simp only [node, nodes_eq_map, List.zipWith_map_right, List.zipWith_self]
    exact .join (.append .space (.cons _ .space))
      (Agree.map fun member mem => ((all member mem).node depth).unionMember member)
  | arrayType loc element =>
    exact (((all element (by simp [Node.slots])).node depth).arrayElement element).append (.refl _)
  | propertySignature loc key type optional =>
    have typed := (all type (by simp [Node.slots])).node depth
    simp only [node]
    exact ((Agree.refl _).append (.cons _ .space)).append typed
  | typeLiteral loc members =>
    simp only [node, nodes_eq_map]
    exact .typeLiteral (nodes_agree all depth)
      (List.forall_mem_map.mpr fun member mem => ends member mem .compact depth)
  | functionType loc params result =>
    have list := bindings_agree
      (fun p (mem : p ∈ params) => all p (by simp [Node.slots, mem])) depth
    have returned := (all result (by simp [Node.slots])).node depth
    simp only [node, bindings_eq_map]
    exact (((Agree.commas list).parens.append .space).append (.cons _ .space)).append returned
  | array loc isWrapped elements =>
    have items := Agree.arrayItems elements (nodes_agree all depth)
    simp only [node, nodes_eq_map]
    exact .wrapped isWrapped (.append (.cons _ (.commas items)) (.refl _))
  | property loc key value shorthand =>
    have given := (all value (by simp [Node.slots])).node depth
    simp only [node]
    split
    · exact given
    · exact ((Agree.refl _).append (.cons _ .space)).append given
  | object loc isWrapped properties =>
    have items := Agree.commas (nodes_agree all depth)
    simp only [node, nodes_eq_map]
    refine .wrapped isWrapped ?_
    split
    · exact .refl _
    · exact (((Agree.cons _ .space).append items).append .space).append (.refl _)
  | defaultParam => exact binding_agree all depth
  | functionExpression loc isWrapped name params body result =>
    have list := bindings_agree
      (fun p (mem : p ∈ params) => all p (by simp [Node.slots, mem])) depth
    have returned := (all result (by simp [Node.slots])).node depth
    have inside := (all body (by simp [Node.slots])).blockOf depth
    simp only [node, bindings_eq_map]
    exact .wrapped isWrapped (.function name list (returned.ascription result) inside)
  | arrowFunction loc isWrapped params body =>
    have list := bindings_agree
      (fun p (mem : p ∈ params) => all p (by simp [Node.slots, mem])) depth
    have inside := (all body (by simp [Node.slots])).node depth
    simp only [node, bindings_eq_map]
    exact .wrapped isWrapped ((((Agree.commas list).parens.append .space).append
      (.cons _ .space)).append (inside.wrapped _))
  | unary loc isWrapped sign argument =>
    exact (((all argument (by simp [Node.slots])).node depth).before sign).wrapped isWrapped
  | update loc isWrapped sign leading argument =>
    have given := (all argument (by simp [Node.slots])).node depth
    simp only [node]
    refine .wrapped isWrapped ?_
    split
    · exact (Agree.refl _).append given
    · exact given.append (.refl _)
  | binary loc isWrapped sign left right | logical loc isWrapped sign left right
  | assignment loc isWrapped sign left right =>
    have first := (all left (by simp [Node.slots])).node depth
    have second := (all right (by simp [Node.slots])).node depth
    exact (first.between sign second).wrapped isWrapped
  | conditional loc isWrapped test consequent alternate =>
    have condition := (all test (by simp [Node.slots])).node depth
    have first := (all consequent (by simp [Node.slots])).node depth
    have second := (all alternate (by simp [Node.slots])).node depth
    simp only [node]
    exact .wrapped isWrapped ((((((condition.append .space).append (.cons _ .space)).append
      first).append .space).append (.cons _ .space)).append second)
  | call loc isWrapped callee arguments =>
    have called := (all callee (by simp [Node.slots])).node depth
    have given := nodes_agree
      (fun a (mem : a ∈ arguments) => all a (by simp [Node.slots, mem])) depth
    simp only [node, nodes_eq_map]
    exact .wrapped isWrapped (called.append (Agree.commas given).parens)
  | construction loc isWrapped callee arguments =>
    have called := (all callee (by simp [Node.slots])).node depth
    have given := nodes_agree
      (fun a (mem : a ∈ arguments) => all a (by simp [Node.slots, mem])) depth
    simp only [node, nodes_eq_map]
    exact .wrapped isWrapped (.append (.cons _ (.cons _ called)) (Agree.commas given).parens)
  | member loc isWrapped value selector computed =>
    have inner := (all value (by simp [Node.slots])).node depth
    have selected := (all selector (by simp [Node.slots])).node depth
    simp only [node]
    refine .wrapped isWrapped (inner.append ?_)
    split
    · exact .append (.cons _ selected) (.refl _)
    · exact .cons _ selected
  | sequence loc isWrapped expressions =>
    simp only [node, nodes_eq_map]
    exact .wrapped isWrapped (.commas (nodes_agree all depth))
  | declarator loc name initializer =>
    have bound := (all name (by simp [Node.slots])).binding depth
    have given := (all initializer (by simp [Node.slots])).node depth
    exact bound.append (given.valuePart initializer)
  | variableDeclaration loc word declarators =>
    simp only [node, nodes_eq_map]
    exact .cons _ (.cons _ (.commas (nodes_agree all depth)))
  | block loc statements =>
    simp only [node, nodes_eq_map]
    exact block_agree all depth
  | functionDeclaration loc name params body result =>
    have list := bindings_agree
      (fun p (mem : p ∈ params) => all p (by simp [Node.slots, mem])) depth
    have returned := (all result (by simp [Node.slots])).node depth
    have inside := (all body (by simp [Node.slots])).blockOf depth
    simp only [node, bindings_eq_map]
    exact .function name list (returned.ascription result) inside
  | interfaceDeclaration loc name members =>
    have lines : List.Forall₂ Agree ((members.map (node .compact (depth + 1))).map terminated)
        ((members.map (node .pretty (depth + 1))).map terminated) := by
      rw [List.map_map, List.map_map]
      exact Agree.map fun m mem =>
        ((all m (by simp [Node.slots, mem])).node (depth + 1)).append (.refl _)
    simp only [node, nodes_eq_map]
    exact ((Agree.refl _).append .space).append (.braced depth lines)
  | returnStatement loc argument =>
    have given := (all argument (by simp [Node.slots])).node depth
    simp only [node]
    split
    · exact .refl _
    · exact .append (.cons _ (.cons _ given)) (.refl _)
  | throwStatement loc argument =>
    have given := (all argument (by simp [Node.slots])).node depth
    exact .append (.cons _ (.cons _ given)) (.refl _)
  | expressionStatement loc expression =>
    have given := (all expression (by simp [Node.slots])).node depth
    exact (given.wrapped _).append (.refl _)
  | ifStatement loc test consequent alternate =>
    have condition := (all test (by simp [Node.slots])).node depth
    have first := (all consequent (by simp [Node.slots])).node depth
    have second := (all alternate (by simp [Node.slots])).node depth
    simp only [node]
    exact (((Agree.cons _ .space).append condition.parens).append
      (first.body false consequent)).append (second.elsePart depth consequent alternate)
  | whileStatement loc test body =>
    have condition := (all test (by simp [Node.slots])).node depth
    have inside := (all body (by simp [Node.slots])).node depth
    simp only [node]
    exact ((Agree.cons _ .space).append condition.parens).append (inside.body false body)
  | forStatement loc initializer test step body =>
    have initial := (all initializer (by simp [Node.slots])).node depth
    have condition := (all test (by simp [Node.slots])).node depth
    have increment := (all step (by simp [Node.slots])).node depth
    have inside := (all body (by simp [Node.slots])).node depth
    simp only [node]
    exact ((Agree.cons _ .space).append (initial.loopHeader (condition.headerPart test)
      (increment.headerPart step)).parens).append (inside.body false body)
  | exportNamed loc declaration =>
    have given := (all declaration (by simp [Node.slots])).node depth
    exact .cons _ (.cons _ (given.sealed declaration))
  | exportDefault loc declaration =>
    have given := (all declaration (by simp [Node.slots])).node depth
    exact .cons _ (.cons _ (.cons _ (.cons _ (given.sealed declaration))))
  | program loc statements =>
    have ended : List.Forall₂ Agree
        (statements.zipWith sealed (statements.map (node .compact depth)))
        ((statements.zipWith sealed (statements.map (node .pretty depth))).map
          (· ++ [newline])) :=
      List.forall₂_map_right_iff.mpr ((sealed_agree all depth).imp fun line line' agree g => by
        rw [agree, addTo_append]
        rfl)
    simp only [node, nodes_eq_map, List.flatMap]
    exact .flatten ended

end Parts

/-- Both layouts of a tree amount to the same. -/
theorem laidOut (root : Node) (ends : root.Every EndsMembers) : LaidOut root := by
  induction root using Node.slots_induction with
  | node root ih =>
    obtain ⟨here, each⟩ := ends
    have all : ∀ slot ∈ root.slots, LaidOut slot := fun slot mem => ih slot mem (each slot mem)
    exact ⟨(node_agree all · here), binding_agree all, blockOf_agree all⟩

end Pieces

namespace Grammar

open Pieces (EndsMembers)

variable {W : Text → Prop} {K : MemberKey → Prop} {R : Prop}

theorem TypeTree.endsMembers {slot : TypeSlot} {type : Node} (tree : TypeTree W K slot type) :
    type.Every EndsMembers := by
  refine tree.every_of_tree fun tree => ?_
  cases tree with
  | literal each => exact fun m mem => Pieces.blind_typeTree (each m mem)
  | _ => trivial

theorem InterfaceTree.endsMembers {node : Node} (tree : InterfaceTree W K node) :
    node.Every EndsMembers := by
  obtain ⟨-, each⟩ := tree
  refine .mk trivial (List.forall_mem_cons.mpr ⟨.mk trivial ?_, fun m mem => ?_⟩)
  · exact List.forall_mem_singleton.mpr (.mk trivial nofun)
  · exact (each m mem).endsMembers

/-- The type literals of a tree that fits hold members. -/
theorem Fits.endsMembers {form : Form} {node : Node} (fits : Fits (.withTypes W K R) form node) :
    node.Every EndsMembers := by
  have parts : Fits.Parts (.withTypes W K R) EndsMembers := by
    refine ⟨trivial, fun _ => trivial, ?_, ?_, TypeTree.endsMembers, InterfaceTree.endsMembers⟩
    · rintro _ (_ | _ | _) <;> trivial
    · rintro loc name type ⟨-, tree⟩
      exact .mk trivial (List.forall_mem_singleton.mpr tree.endsMembers)
  refine fits.every parts fun {form node} fits => ?_
  induction fits with
  | @wrapped _ _ _ e inner unwrapped ih => cases e <;> exact ih
  | binary level => cases level <;> trivial
  | param bound => cases bound <;> trivial
  | interface allowed => exact allowed.endsMembers.here
  | given _ ih | initializerVariables _ ih | initializerExpression _ ih | declared _ ih
  | declaredVariables _ ih | blockStatement _ ih => exact ih
  | _ => trivial

/-- The two texts of a tree have the same condensed tokens, or neither has tokens. -/
theorem Fits.condensedScan_layouts {program : Node}
    (fits : Fits (.withTypes W K R) .program program)
    (words : ∀ t, W t → Lexeme.isWordText t = true) :
    Token.condensedScan (Print.node .compact 0 [] program) =
      Token.condensedScan (Print.node .pretty 0 [] program) := by
  have spells : SpellsTypes True (withTypes W K R) :=
    spellsTypes_withTypes R words fun _ _ => .inl trivial
  have scanned (layout : Layout) : Token.condensedScan (Print.node layout 0 [] program) =
      (if (Pieces.node layout 0 program).all Piece.isWhole then
        some (Pieces.tokens (Pieces.node layout 0 program)) else none).map Token.condensed := by
    rw [(Print.pieced program fits.chained).text, Token.condensedScan_eq,
      Pieces.symbols_text (fits.separate spells layout 0)]
  have same := (Pieces.laidOut program fits.endsMembers).node 0 ⟨[], false, true⟩
  rw [Pieces.addTo_empty, Pieces.addTo_empty, Gist.mk.injEq] at same
  obtain ⟨tokens, -, whole⟩ := same
  rw [scanned, scanned, whole]
  split
  · exact congrArg some tokens
  · rfl

end Grammar

/-- A tree that both layouts print, with the same condensed tokens in both texts, or with none. -/
def Node.PrintsAlike (program : Node) : Prop :=
  ∃ compact pretty, program.print .compact = .ok compact ∧ program.print .pretty = .ok pretty ∧
    Token.condensedScan compact = Token.condensedScan pretty

theorem Grammar.Fits.printsAlike {W : Text → Prop} {K : MemberKey → Prop} {R : Prop}
    {program : Node} (fits : Fits (.withTypes W K R) .program program)
    (words : ∀ t, W t → Lexeme.isWordText t = true) : program.PrintsAlike :=
  ⟨_, _, Transpiled.print_of_fits .compact fits, Transpiled.print_of_fits .pretty fits,
    fits.condensedScan_layouts words⟩

/-- Both layouts of a program that was read, and of the program with its annotations, are scanned
into the same tokens, or neither is scanned; ends of lines and semicolons directly before closing
braces are left out. This holds whatever is in memory from earlier requests. -/
theorem Source.layouts_print_alike (dialect : Dialect) (source : Text)
    (history : List Inference.Request) {program : Node}
    (read : Source.read dialect source = .ok program) :
    let memory := (Inference.Request.serveAll history .empty).2
    program.PrintsAlike ∧ ∃ annotated,
      Gloss.annotate (Facts.collect program memory).1 program = .ok annotated ∧
        annotated.PrintsAlike := by
  intro memory
  have sound := (Inference.Request.serveAll_sound history Cache.sound_empty).2
  obtain ⟨ts, reads⟩ := Source.reads_of_read read
  obtain ⟨created, glossed⟩ := Gloss.glossed_of_binds sound (Gloss.binds_of_fits reads.fits)
  have names := Gloss.namesTypes_collect reads.fits memory
  have fits := glossed.fits_of_names (fun _ => id) reads.fits fun name mem => (names name mem).1.1
  exact ⟨reads.fits.printsAlike fun _ => id, _, glossed.annotated, fits.printsAlike fun _ => id⟩

/-- A type literal ends with a semicolon in the compact layout only. -/
theorem Source.layouts_print_alike_literal :
    ∃ program annotated, Source.read .typescript "let a:\x7bb:T\x7d=c" = .ok program ∧
      program.PrintsAlike ∧
      Gloss.annotate (Facts.collect program .empty).1 program = .ok annotated ∧
      annotated.PrintsAlike := by
  obtain ⟨program, read⟩ : ∃ program,
      Source.read .typescript "let a:\x7bb:T\x7d=c" = .ok program := ⟨_, rfl⟩
  obtain ⟨alike, annotated, isAnnotated, annotatedAlike⟩ :=
    Source.layouts_print_alike .typescript _ [] read
  exact ⟨program, annotated, read, alike, isAnnotated, annotatedAlike⟩

end TypeGloss
