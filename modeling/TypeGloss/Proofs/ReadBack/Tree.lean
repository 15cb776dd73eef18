import TypeGloss.Proofs.ReadBack.Control

/-!
# Trees are read back

Every tree in which no reserved word stands as an operand is read back from its printed tokens, by
induction on the grammar of trees.
-/

namespace TypeGloss

open Grammar (Fits Form Opening rendered)

namespace Reader

variable {layout : Layout} {tightness : Nat} {opening : Opening} {closed : Bool} {node : Node}

theorem ReadsExpression.isAbsent (reads : ReadsExpression layout tightness opening node) :
    node.isAbsent = false := by
  cases node with
  | absent =>
    obtain ⟨kind, t, rest, none, -⟩ := reads.opens 0
    cases none
  | _ => rfl

theorem ReadsStatement.isAbsent (reads : ReadsStatement layout closed node) :
    node.isAbsent = false := by
  cases node with
  | absent =>
    obtain ⟨kind, t, ts, none, -⟩ := reads.starts 0
    cases none
  | _ => rfl

end Reader

namespace Grammar

open Reader

variable {G : Grammar} {node : Node} {tightness : Nat} {opening : Opening} {tail : Bool}

theorem Fits.isBareObject (fits : Fits G (.expression tightness opening tail) node)
    (noObject : opening.allowsObject = false) : Print.isBareObject node = false := by
  cases fits with
  | object opens => simp [opens] at noObject
  | @wrapped _ _ _ e inner unwrapped => cases e <;> rfl
  | binary level => cases level <;> rfl
  | _ => rfl

theorem Fits.startsAmbiguously (fits : Fits G (.expression tightness opening tail) node)
    (noObject : opening.allowsObject = false) (noFunction : opening.allowsFunction = false) :
    Print.startsAmbiguously node = false := by
  cases fits with
  | object opens => simp [opens] at noObject
  | function opens => simp [opens] at noFunction
  | @wrapped _ _ _ e inner unwrapped => cases e <;> rfl
  | binary level => cases level <;> rfl
  | _ => rfl

/-- How a tree is read back, by its slot. -/
def Form.Reads (layout : Layout) : Form → Node → Prop
  | .expression tightness opening _, node => ReadsExpression layout tightness opening node
  | .optional tightness opening, node => node = .absent ∨
      node.isAbsent = false ∧ ReadsExpression layout tightness opening node
  | .callee, node => ReadsCallee layout node
  | .property, node => ReadsProperty layout node
  | .param, node => ReadsParam layout node
  | .declarator, node => ReadsDeclarator layout node
  | .declaration, node => ReadsDeclaration layout node ∧ ReadsDeclared layout node
  | .declared, node => ReadsDeclared layout node
  | .initializer, node => ReadsInitializer layout node
  | .block, node => ReadsBlock layout node ∧ ∃ loc body, node = .block loc body
  | .statement closed, node => ReadsStatement layout closed node
  | .program, node => ∃ loc body, node = .program loc body ∧ ∀ depth,
      start.read? (Pieces.tokens (Pieces.node layout depth node)) =
        some (.program .first (body.map Node.unplaced))

theorem Fits.reads {form : Form} (fits : Fits (rendered False) form node) (layout : Layout) :
    form.Reads layout node := by
  induction fits with
  | name isName => exact .name isName
  | number spelling => exact .atom .number (by decide) (fun _ => rfl) spelling rfl (.inr rfl)
  | string spelling => exact .atom .string (by decide) (fun _ => rfl) spelling rfl (.inr rfl)
  | template spelling => exact .atom .template (by decide) (fun _ => rfl) spelling rfl (.inr rfl)
  | @boolean _ _ _ _ value =>
    cases value with
    | true => exact .atom (.keyword .trueKw) (by decide) (fun _ => rfl) rfl rfl (.inr rfl)
    | false => exact .atom (.keyword .falseKw) (by decide) (fun _ => rfl) rfl rfl (.inr rfl)
  | null => exact .atom (.keyword .nullKw) (by decide) (fun _ => rfl) rfl rfl (.inr rfl)
  | this => exact .atom (.keyword .thisKw) (by decide) (fun _ => rfl) rfl rfl (.inr rfl)
  | array each ih =>
    refine .array fun e mem => (ih e mem).imp_right fun ⟨isGiven, reads⟩ => ⟨?_, reads⟩
    rintro rfl
    cases isGiven
  | object opens each ih =>
    exact .object opens ih fun _ => (Fits.object (ℓ := 0) (t := false) opens each).opens rfl _ _
  | function opens named each block typed ihEach ihBlock =>
    exact .function opens named ihEach ihBlock.1 typed
  | call called each ihCalled ihEach => exact .call ihCalled ihEach
  | construction called each ihCalled ihEach => exact .construction ihCalled ihEach
  | member inner word ih => exact .member ih
  | index inner selected ihInner ihSelected => exact .index ihInner ihSelected
  | wrapped inner unwrapped ih => exact .wrapped ih (inner.carriesLinks rfl) unwrapped
  | updateBehind loose sign inner ih => exact .updateBehind loose sign ih
  | updateBefore loose sign inner ih =>
    exact .updateBefore loose sign ih fun _ =>
      (Fits.updateBefore (o := .any) loose sign inner).opens rfl _ _
  | unary loose sign inner ih =>
    exact .unary loose sign ih fun _ => (Fits.unary (o := .any) loose sign inner).opens rfl _ _
  | reservedUnary allowed => exact allowed.elim
  | binary level loose sign first second ihFirst ihSecond =>
    exact .binary level loose sign ihFirst ihSecond
  | reservedRight allowed => exact allowed.elim
  | conditional loose condition first second ihCondition ihFirst ihSecond =>
    exact .conditional loose ihCondition ihFirst ihSecond
  | assignment loose sign assigned inner ihAssigned ihInner =>
    exact .assignment loose sign ihAssigned ihInner
  | arrow loose each inner ihEach ihInner =>
    exact .arrow loose ihEach ihInner (inner.isBareObject rfl) fun _ =>
      (Fits.arrow (o := .any) loose each inner).opens rfl _ _
  | arrowBlock loose each block ihEach ihBlock =>
    obtain ⟨reads, loc, body, rfl⟩ := ihBlock
    exact .arrowBlock loose ihEach reads
      (fun _ => by simp [Print.isBareObject, Pieces.wrapped, Pieces.node, Pieces.blockOf])
      fun _ => (Fits.arrowBlock (o := .any) (t := false) loose each block).opens rfl _ _
  | sequence loose several leading each ihLeading ihEach =>
    subst loose
    exact .sequence several ihLeading ihEach
  | omitted => exact .inl rfl
  | given inner ih => exact .inr ⟨ih.isAbsent, ih⟩
  | calleeName isName => exact .name isName
  | calleeMember inner word ih => exact .member ih
  | shorthand isName => exact reads_shorthand isName
  | property isKey inner ih => exact reads_property isKey ih
  | param bound => exact reads_param bound
  | defaultParam bound inner ih => exact reads_defaultParam bound ih ih.isAbsent
  | declarator bound inner ih => exact reads_declarator bound ih
  | declaration word nonempty each ih =>
    exact ⟨reads_declaration word nonempty ih,
      reads_variables word (reads_declaration word nonempty ih)⟩
  | declaredVariables inner ih => exact ih.2
  | declaredFunction named each block typed ihEach ihBlock =>
    exact reads_function named ihEach ihBlock.1 typed
  | noInitializer => exact reads_noInitializer
  | initializerVariables inner ih => exact ReadsDeclaration.initializer ih.1
  | initializerExpression inner ih => exact ih.initializer
  | block each ih => exact ⟨reads_block ih, _, _, rfl⟩
  | declared inner ih => exact ih.statement
  | interface allowed => exact reads_interface allowed
  | exportNamed inner ih => exact reads_exportNamed ih
  | exportDefault inner ih => exact reads_exportDefault ih
  | blockStatement inner ih =>
    obtain ⟨reads, loc, body, rfl⟩ := ih
    exact reads.statement
  | returned inner ih => exact reads_return ih
  | thrown inner ih => exact reads_throw ih
  | breakStatement =>
    exact reads_word_statement .breakKw (fun _ => rfl) (by decide) fun _ => ⟨_, rfl, rfl⟩
  | continueStatement =>
    exact reads_word_statement .continueKw (fun _ => rfl) (by decide) fun _ => ⟨_, rfl, rfl⟩
  | emptyStatement => exact reads_empty
  | expressionStatement inner ih =>
    exact reads_expressionStatement ih (inner.startsAmbiguously rfl rfl)
  | ifThen condition first ihCondition ihFirst => exact reads_if ihCondition ihFirst
  | ifElse condition first second ihCondition ihFirst ihSecond =>
    exact reads_ifElse ihCondition ihSecond.isAbsent ihFirst ihSecond
  | whileLoop condition inner ihCondition ihInner => exact reads_while ihCondition ihInner
  | forLoop initial condition increment inner ihInitial ihCondition ihIncrement ihInner =>
    exact reads_for ihInitial (ihCondition.imp_right And.right) (ihIncrement.imp_right And.right)
      ihInner
  | program each ih => exact ⟨_, _, rfl, fun _ => read?_program ih⟩

end Grammar

end TypeGloss
