import TypeGloss.Proofs.TypeTree

/-!
# Properties of all parts of a tree

What holds of every node that fits a slot holds throughout a tree that fits, if it holds of names,
keys, types and interfaces as well.
-/

namespace TypeGloss

open Lexeme (isWordText IsName)

@[simp] theorem Node.slots_wrap (node : Node) : node.wrap.slots = node.slots := by
  cases node <;> rfl

namespace Grammar

variable {G : Grammar}

/-- What the parts of a tree that fill no slot of the grammar have to satisfy. -/
structure Fits.Parts (G : Grammar) (p : Node → Prop) : Prop where
  absent : p .absent
  name : ∀ {loc name}, isWordText name = true → p (.identifier loc false name .absent)
  key : ∀ {key}, Key key → p key
  typed : ∀ {loc name type}, G.annotated name type →
    Node.Every p (.identifier loc false name type)
  result : ∀ {type}, G.result type → type.Every p
  interface : ∀ {d}, G.interface d → d.Every p

/-- What holds of all type syntax and of keys holds of those parts. -/
theorem Fits.Parts.of_isTypePart {W : Text → Prop} {K : MemberKey → Prop} {R : Prop}
    {p : Node → Prop} (part : ∀ node, isTypePart node = true → p node)
    (key : ∀ {node}, Key node → p node) : Fits.Parts (.withTypes W K R) p where
  absent := part _ rfl
  name _ := part _ rfl
  key := key
  typed annotated :=
    .mk (part _ rfl) (List.forall_mem_singleton.mpr (annotated.2.every.imp part))
  result tree := tree.every.imp part
  interface tree := tree.every.imp part

/-- What holds of every node that fits a slot holds throughout a tree that fits. -/
theorem Fits.every {p : Node → Prop} (parts : Fits.Parts G p)
    (here : ∀ {form node}, Fits G form node → p node) {form : Form} {node : Node}
    (fits : Fits G form node) : node.Every p := by
  have absent : Node.Every p .absent := .mk parts.absent (by simp [Node.slots])
  have named : ∀ {loc name}, isWordText name = true →
      Node.Every p (.identifier loc false name .absent) := fun word =>
    .mk (parts.name word) (by simpa [Node.slots] using absent)
  have binder : ∀ {node}, Binder G node → node.Every p := by
    intro node bound
    cases bound with
    | plain isName => exact named isName.1
    | typed annotated => exact parts.typed annotated
  have nameSlot : ∀ {node}, NameSlot node → node.Every p := by
    intro node slot
    cases slot with
    | none => exact absent
    | some isName => exact named isName.1
  have resultSlot : ∀ {node}, ResultSlot G node → node.Every p := by
    intro node slot
    cases slot with
    | none => exact absent
    | some allowed => exact parts.result allowed
  have keySlot : ∀ {node}, Key node → node.Every p := by
    intro node isKey
    cases isKey with
    | name word => exact named word
    | string spelling => exact .mk (parts.key (.string spelling)) (by simp [Node.slots])
    | number spelling => exact .mk (parts.key (.number spelling)) (by simp [Node.slots])
  have inside : ∀ slot ∈ node.slots, slot.Every p := by
    induction fits with
    | name | calleeName => simpa [Node.slots] using absent
    | number | string | template | boolean | null | this | breakStatement | continueStatement
    | emptyStatement | omitted | noInitializer => simp [Node.slots]
    | array each ih | object _ each ih | declaration _ _ each ih | block each ih
    | program each ih =>
      exact fun slot mem => .mk (here (each slot mem)) (ih slot mem)
    | function opens name each block typed ihEach ihBlock =>
      simp only [Node.slots, List.cons_append, List.forall_mem_cons, List.forall_mem_append]
      exact ⟨nameSlot name, fun p mem => .mk (here (each p mem)) (ihEach p mem),
        .mk (here block) ihBlock, resultSlot typed, by simp⟩
    | declaredFunction name each block typed ihEach ihBlock =>
      simp only [Node.slots, List.cons_append, List.forall_mem_cons, List.forall_mem_append]
      exact ⟨nameSlot name, fun p mem => .mk (here (each p mem)) (ihEach p mem),
        .mk (here block) ihBlock, resultSlot typed, by simp⟩
    | call called each ih ihEach | construction called each ih ihEach =>
      exact List.forall_mem_cons.mpr
        ⟨.mk (here called) ih, fun a mem => .mk (here (each a mem)) (ihEach a mem)⟩
    | member inner word ih | calleeMember inner word ih =>
      simpa [Node.slots] using ⟨.mk (here inner) ih, named word⟩
    | wrapped inner unwrapped ih => simpa using ih
    | updateBehind _ _ inner ih | updateBefore _ _ inner ih | unary _ _ inner ih
    | exportNamed inner ih | exportDefault inner ih | returned inner ih | thrown inner ih
    | expressionStatement inner ih =>
      simpa [Node.slots] using Node.Every.mk (here inner) ih
    | reservedUnary allowed loose word => simpa [Node.slots] using named word
    | binary level _ _ first second ihFirst ihSecond =>
      have both := And.intro (Node.Every.mk (here first) ihFirst)
        (Node.Every.mk (here second) ihSecond)
      cases level <;> simpa [Node.slots, Parse.Level.node] using both
    | reservedRight allowed loose first word ih =>
      simpa [Node.slots, Parse.Level.node] using ⟨.mk (here first) ih, named word⟩
    | index first second ihFirst ihSecond | assignment _ _ first second ihFirst ihSecond
    | whileLoop first second ihFirst ihSecond =>
      simpa [Node.slots] using ⟨.mk (here first) ihFirst, .mk (here second) ihSecond⟩
    | conditional _ condition first second ihCondition ihFirst ihSecond
    | ifElse condition first second ihCondition ihFirst ihSecond =>
      simpa [Node.slots] using ⟨.mk (here condition) ihCondition, .mk (here first) ihFirst,
        .mk (here second) ihSecond⟩
    | arrow _ each inner ihEach ih | arrowBlock _ each inner ihEach ih =>
      simp only [Node.slots, List.forall_mem_append, List.forall_mem_singleton]
      exact ⟨fun p mem => .mk (here (each p mem)) (ihEach p mem), .mk (here inner) ih⟩
    | sequence _ _ leading each ih ihEach =>
      exact List.forall_mem_cons.mpr
        ⟨.mk (here leading) ih, fun e mem => .mk (here (each e mem)) (ihEach e mem)⟩
    | given _ ih | declaredVariables _ ih | initializerVariables _ ih
    | initializerExpression _ ih | declared _ ih | blockStatement _ ih => exact ih
    | shorthand isName => simpa [Node.slots] using ⟨named isName.1, named isName.1⟩
    | property isKey inner ih =>
      simpa [Node.slots] using ⟨keySlot isKey, .mk (here inner) ih⟩
    | param bound => exact (binder bound).each
    | defaultParam bound inner ih | declarator bound inner ih =>
      simpa [Node.slots] using ⟨binder bound, .mk (here inner) ih⟩
    | interface allowed => exact (parts.interface allowed).each
    | ifThen condition first ihCondition ihFirst =>
      simpa [Node.slots] using ⟨.mk (here condition) ihCondition, .mk (here first) ihFirst, absent⟩
    | forLoop initial condition increment inner ihInitial ihCondition ihIncrement ihInner =>
      simpa [Node.slots] using ⟨.mk (here initial) ihInitial, .mk (here condition) ihCondition,
        .mk (here increment) ihIncrement, .mk (here inner) ihInner⟩
  exact .mk (here fits) inside

end Grammar

end TypeGloss
