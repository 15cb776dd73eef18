import TypeGloss.Transpile

/-!
# Inference without memory

The shape of an expression is defined here by recursion on the expression alone. The fingerprint of
an expression determines this shape, so a memory whose entries agree with their fingerprints answers
every question as the recursion does. The memory keeps this property, whatever is asked of it.
-/

namespace TypeGloss

namespace Inference

mutual

/-- The shape of an expression, worked out anew at every node. -/
def plain (context : Context) : Node → Shape
  | .number .. => .number
  | .string .. => .string
  | .boolean .. => .boolean
  | .null .. => .null
  | .object _ _ properties => Shape.objectOf (plainFields context properties)
  | .array _ _ elements => Shape.arrayOf (plainAll context elements)
  | .binary _ _ operator left right =>
    if operator ≠ plusSign then .any
    else if plain context left = .string ∨ plain context right = .string then .string
    else .number
  | .identifier _ _ name _ => (context.get? name).getD .any
  | _ => .any

/-- The shapes of the elements of an array. -/
def plainAll (context : Context) : List Node → List Shape
  | [] => []
  | node :: rest => plain context node :: plainAll context rest

/-- The keys and shapes of the properties of an object. -/
def plainFields (context : Context) : List Node → List (Text × Shape)
  | [] => []
  | .property _ key value _ :: rest =>
    (key.propertyKey, plain context value) :: plainFields context rest
  | _ :: rest => plainFields context rest

end

end Inference

namespace Fingerprint

/-- The shape of a chain that is prolonged by an operator and a right operand. -/
def extend (left : Shape) (operator : Text) (right : Shape) : Shape :=
  if operator = plusSign then left.plus right else .any

mutual

/-- The shape of the expressions with a fingerprint. -/
def shape : Fingerprint → Shape
  | .number _ => .number
  | .string _ => .string
  | .boolean _ => .boolean
  | .object fields => Shape.objectOf (shapeFields fields)
  | .array elements => Shape.arrayOf (shapeAll elements)
  | .chain first links =>
    (shapeFields links).foldl (fun left link => extend left link.1 link.2) (shape first)
  | .identifier _ shape => shape
  | .other kind => if kind = "NullLiteral" then .null else .any
  | .undefined => .any

/-- The shapes of a list of fingerprints. -/
def shapeAll : List Fingerprint → List Shape
  | [] => []
  | fingerprint :: rest => shape fingerprint :: shapeAll rest

/-- The shapes of a list of named fingerprints. -/
def shapeFields : List (Text × Fingerprint) → List (Text × Shape)
  | [] => []
  | (name, fingerprint) :: rest => (name, shape fingerprint) :: shapeFields rest

end

private theorem shapeFields_append (fields others : List (Text × Fingerprint)) :
    shapeFields (fields ++ others) = shapeFields fields ++ shapeFields others := by
  induction fields with
  | nil => rfl
  | cons field rest ih =>
    obtain ⟨name, fingerprint⟩ := field
    simp only [List.cons_append, shapeFields, ih]

/-- A link prolongs the shape of a chain, however the chain was flattened. -/
theorem shape_link (left : Fingerprint) (operator : Text) (right : Fingerprint) :
    (left.link operator right).shape = extend left.shape operator right.shape := by
  cases left with
  | chain first links =>
    simp only [link, shape, shapeFields_append, shapeFields, List.foldl_append, List.foldl_cons,
      List.foldl_nil]
  | _ => simp only [link, shape, shapeFields, List.foldl_cons, List.foldl_nil]

end Fingerprint

namespace Inference

mutual

/-- The fingerprint of an expression in a context determines its shape there. -/
theorem shape_fingerprint (context : Context) (node : Node) :
    (node.fingerprint context).shape = plain context node := by
  cases node with
  | object loc wrapped properties =>
    simp only [Node.fingerprint, Fingerprint.shape, plain,
      shapeFields_fingerprintFields context properties]
  | array loc wrapped elements =>
    simp only [Node.fingerprint, Fingerprint.shape, plain,
      shapeAll_fingerprintAll context elements]
  | binary loc wrapped operator left right =>
    simp only [Node.fingerprint, Fingerprint.shape_link, Fingerprint.extend, Shape.plus, plain,
      shape_fingerprint context left, shape_fingerprint context right, ne_eq, ite_not]
  | _ => simp [Node.fingerprint, Fingerprint.shape, plain, Node.kindName]

private theorem shapeAll_fingerprintAll (context : Context) :
    ∀ nodes : List Node,
      Fingerprint.shapeAll (Node.fingerprintAll context nodes) = plainAll context nodes
  | [] => rfl
  | node :: rest => by
    simp only [Node.fingerprintAll, Fingerprint.shapeAll, plainAll,
      shape_fingerprint context node, shapeAll_fingerprintAll context rest]

private theorem shapeFields_fingerprintFields (context : Context) :
    ∀ nodes : List Node,
      Fingerprint.shapeFields (Node.fingerprintFields context nodes) = plainFields context nodes
  | [] => rfl
  | node :: rest => by
    have ih := shapeFields_fingerprintFields context rest
    cases node with
    | property loc key value shorthand =>
      simp only [Node.fingerprintFields, Fingerprint.shapeFields, plainFields,
        shape_fingerprint context value, ih]
    | _ => simp only [Node.fingerprintFields, plainFields, ih]

end

end Inference

namespace Cache

/-- Every kept shape is the one that its fingerprint determines. -/
def Sound (cache : Cache) : Prop := ∀ entry ∈ cache.entries, entry.2 = entry.1.shape

theorem sound_empty : Cache.empty.Sound := by
  intro entry member
  cases member

theorem Sound.hit {cache : Cache} (sound : cache.Sound) : cache.hit.Sound := sound

theorem Sound.miss {cache : Cache} (sound : cache.Sound) : cache.miss.Sound := sound

theorem Sound.insert {cache : Cache} (sound : cache.Sound) (fingerprint : Fingerprint) :
    (cache.insert fingerprint fingerprint.shape).Sound := by
  intro entry member
  rcases List.mem_cons.mp member with rfl | member
  · rfl
  · exact sound entry member

/-- A fingerprint that is found in a sound memory is found with its shape. -/
theorem Sound.eq_of_find? {cache : Cache} (sound : cache.Sound) {wanted : Fingerprint}
    {shape : Shape} (found : cache.find? wanted = some shape) : shape = wanted.shape := by
  obtain ⟨entry, search, rfl⟩ := Option.map_eq_some_iff.mp found
  have wantedEq : entry.1 = wanted := by simpa using List.find?_some search
  rw [← wantedEq]
  exact sound entry (List.mem_of_find?_eq_some search)

/-- A result that agrees with the recursion and leaves a sound memory behind. -/
structure Gives (expected : Shape) (result : Shape × Cache) : Prop where
  shape_eq : result.1 = expected
  sound : result.2.Sound

/-- Remembering gives the shape of the fingerprint, if working it out does. -/
theorem Sound.remember {cache : Cache} (sound : cache.Sound) {fingerprint : Fingerprint}
    {work : Cache → Shape × Cache}
    (works : ∀ cache : Cache, cache.Sound → Gives fingerprint.shape (work cache)) :
    Gives fingerprint.shape (cache.remember fingerprint work) := by
  unfold Cache.remember
  cases found : cache.find? fingerprint with
  | some shape => exact ⟨sound.eq_of_find? found, sound.hit⟩
  | none =>
    have worked := works cache.miss sound.miss
    refine ⟨worked.shape_eq, ?_⟩
    simp only [worked.shape_eq]
    exact worked.sound.insert fingerprint

end Cache

namespace Inference

open Cache (Gives)

/-- A shape that is known at once leaves the memory as it is. -/
private theorem gives_known {shape expected : Shape} (eq : shape = expected) (cache : Cache)
    (sound : cache.Sound) : Gives expected (known shape cache) := ⟨eq, sound⟩

mutual

/-- With a sound memory, inference gives the shape that the recursion gives, inside a chain and
outside, and leaves a sound memory behind. -/
theorem infer_gives (context : Context) (inChain : Bool) (node : Node) (cache : Cache)
    (sound : cache.Sound) : Gives (plain context node) (infer context inChain node cache) := by
  cases node with
  | object loc wrapped properties =>
    rw [← shape_fingerprint, infer]
    refine sound.remember fun cache sound => ?_
    obtain ⟨fieldsEq, sound⟩ := inferProperties_gives context properties cache sound
    refine ⟨?_, sound⟩
    simp only [shape_fingerprint, plain, fieldsEq]
  | array loc wrapped elements =>
    rw [← shape_fingerprint, infer]
    refine sound.remember fun cache sound => ?_
    obtain ⟨shapesEq, sound⟩ := inferAll_gives context elements cache sound
    refine ⟨?_, sound⟩
    simp only [shape_fingerprint, plain, shapesEq]
  | binary loc wrapped operator left right =>
    -- The work is the same in a chain, where it is done at once, and outside.
    have works (cache : Cache) (sound : cache.Sound) :
        Gives (plain context (.binary loc wrapped operator left right))
          (if operator = plusSign then
            ((infer context true left cache).1.plus
              (infer context false right (infer context true left cache).2).1,
             (infer context false right (infer context true left cache).2).2)
          else (.any, (infer context true left cache).2)) := by
      have leftGives := infer_gives context true left cache sound
      have rightGives := infer_gives context false right _ leftGives.sound
      by_cases plus : operator = plusSign
      · rw [if_pos plus]
        refine ⟨?_, rightGives.sound⟩
        simp only [leftGives.shape_eq, rightGives.shape_eq, Shape.plus, plain, plus, ne_eq,
          not_true_eq_false, if_false]
      · rw [if_neg plus]
        refine ⟨?_, leftGives.sound⟩
        simp only [plain, ne_eq, plus, not_false_eq_true, if_true]
    rw [infer]
    cases inChain with
    | true => exact works cache sound
    | false =>
      rw [← shape_fingerprint] at works ⊢
      exact sound.remember works
  | number | string | boolean | null | identifier =>
    rw [← shape_fingerprint, infer]
    exact sound.remember (gives_known (by simp only [shape_fingerprint, plain]))
  | _ =>
    rw [infer, plain]
    · exact ⟨rfl, sound⟩
    all_goals intros; contradiction

private theorem inferAll_gives (context : Context) :
    ∀ (nodes : List Node) (cache : Cache), cache.Sound →
      (inferAll context nodes cache).1 = plainAll context nodes ∧
        (inferAll context nodes cache).2.Sound
  | [], cache, sound => ⟨rfl, sound⟩
  | node :: rest, cache, sound => by
    have first := infer_gives context false node cache sound
    have others := inferAll_gives context rest _ first.sound
    refine ⟨?_, others.2⟩
    simp only [inferAll, plainAll, first.shape_eq, others.1]

private theorem inferProperties_gives (context : Context) :
    ∀ (nodes : List Node) (cache : Cache), cache.Sound →
      (inferProperties context nodes cache).1 = plainFields context nodes ∧
        (inferProperties context nodes cache).2.Sound
  | [], cache, sound => ⟨rfl, sound⟩
  | node :: rest, cache, sound => by
    cases node with
    | property loc key value shorthand =>
      have first := infer_gives context false value cache sound
      have others := inferProperties_gives context rest _ first.sound
      refine ⟨?_, others.2⟩
      simp only [inferProperties, plainFields, first.shape_eq, others.1]
    | _ => exact inferProperties_gives context rest cache sound

end

/-- With a sound memory, the shape of an expression is that of the recursion. -/
theorem typeOf_gives (context : Context) (node : Node) {cache : Cache} (sound : cache.Sound) :
    Gives (plain context node) (typeOf context node cache) :=
  infer_gives context false node cache sound

end Inference

namespace Facts

open Cache (Gives)

/-- Two states that differ in their memories at most, which are sound. -/
structure State.Alike (s t : State) : Prop where
  record_eq : s.record = t.record
  sound_left : s.cache.Sound
  sound_right : t.cache.Sound

/-- Two results that differ in their memories at most, which are sound. -/
structure SameFact {α : Type} (x y : α × Cache) : Prop where
  fact_eq : x.1 = y.1
  sound_left : x.2.Sound
  sound_right : y.2.Sound

variable {c d : Cache}

private theorem typeOf_same (context : Context) (node : Node) (hc : c.Sound) (hd : d.Sound) :
    SameFact (Inference.typeOf context node c) (Inference.typeOf context node d) := by
  have left := Inference.typeOf_gives context node hc
  have right := Inference.typeOf_gives context node hd
  exact ⟨left.shape_eq.trans right.shape_eq.symm, left.sound, right.sound⟩

private theorem results_same (context : Context) (arguments : List Node) :
    ∀ {x y : Shape × Cache}, SameFact x y →
      SameFact
        (arguments.foldl (fun (_, cache) argument => Inference.typeOf context argument cache) x)
        (arguments.foldl (fun (_, cache) argument => Inference.typeOf context argument cache)
          y) := by
  induction arguments with
  | nil => exact fun same => same
  | cons argument rest ih =>
    intro x y same
    exact ih (typeOf_same context argument same.sound_left same.sound_right)

private theorem function_same (name : Node) (params : List Node) (body : Node) (hc : c.Sound)
    (hd : d.Sound) : SameFact (function name params body c) (function name params body d) := by
  have same := results_same (hints (params.map (·.bound.name)) body)
    (body.walk.filterMap Node.returned?) (x := (.void, c)) (y := (.void, d)) ⟨rfl, hc, hd⟩
  refine ⟨?_, same.sound_left, same.sound_right⟩
  simp only [function, result, same.fact_eq]

private theorem properties_same (members : List Node) :
    ∀ {c d : Cache}, c.Sound → d.Sound →
      SameFact (properties members c) (properties members d) := by
  induction members with
  | nil => exact fun hc hd => ⟨rfl, hc, hd⟩
  | cons member rest ih =>
    intro c d hc hd
    cases member with
    | property loc key value shorthand =>
      have first := typeOf_same [] value hc hd
      have others := ih first.sound_left first.sound_right
      refine ⟨?_, others.sound_left, others.sound_right⟩
      simp only [properties, first.fact_eq, others.fact_eq]
    | _ => exact ih hc hd

private theorem declarator_alike (reserved : List Text) {s t : State} (alike : s.Alike t)
    (name initializer : Node) :
    (declarator reserved s name initializer).1 = (declarator reserved t name initializer).1 ∧
      (declarator reserved s name initializer).2.Alike
        (declarator reserved t name initializer).2 := by
  have same := typeOf_same [] initializer alike.sound_left alike.sound_right
  unfold declarator
  simp only [same.fact_eq, alike.record_eq]
  exact ⟨trivial, rfl, same.sound_left, same.sound_right⟩

private theorem declarators_alike (reserved : List Text) (nodes : List Node) :
    ∀ {s t : State}, s.Alike t →
      (declarators reserved nodes s).1 = (declarators reserved nodes t).1 ∧
        (declarators reserved nodes s).2.Alike (declarators reserved nodes t).2 := by
  induction nodes with
  | nil => exact fun alike => ⟨rfl, alike⟩
  | cons node rest ih =>
    intro s t alike
    cases node with
    | declarator loc name initializer =>
      obtain ⟨factEq, alike⟩ := declarator_alike reserved alike name initializer
      obtain ⟨factsEq, alike⟩ := ih alike
      refine ⟨?_, alike⟩
      simp only [declarators, factEq, factsEq]
    | _ => exact ih alike

/-- One node adds the same facts to states that are alike. -/
theorem visit_alike (reserved : List Text) {s t : State} (alike : s.Alike t) (node : Node) :
    (visit reserved s node).Alike (visit reserved t node) := by
  obtain ⟨recordEq, hs, ht⟩ := alike
  cases node with
  | variableDeclaration loc keyword declared =>
    obtain ⟨factsEq, recordEq, hs, ht⟩ :=
      declarators_alike reserved declared (s := s) (t := t) ⟨recordEq, hs, ht⟩
    refine ⟨?_, hs, ht⟩
    simp only [visit, factsEq, recordEq]
  | functionDeclaration loc name params body result =>
    have same := function_same name params body hs ht
    refine ⟨?_, same.sound_left, same.sound_right⟩
    simp only [visit, same.fact_eq, recordEq]
  | returnStatement loc argument =>
    have same := typeOf_same [] argument hs ht
    by_cases absent : argument.isAbsent = true
    · simp only [visit, if_pos absent]
      exact ⟨by simp only [recordEq], hs, ht⟩
    · simp only [visit, if_neg absent]
      exact ⟨by simp only [same.fact_eq, recordEq], same.sound_left, same.sound_right⟩
  | object loc wrapped members =>
    have facts := properties_same members hs ht
    have same := typeOf_same [] (.object loc wrapped members) facts.sound_left facts.sound_right
    refine ⟨?_, same.sound_left, same.sound_right⟩
    simp only [visit, facts.fact_eq, same.fact_eq, recordEq]
  | array loc wrapped elements =>
    have same := typeOf_same [] (.array loc wrapped elements) hs ht
    refine ⟨?_, same.sound_left, same.sound_right⟩
    simp only [visit, same.fact_eq, recordEq]
  | _ => exact ⟨recordEq, hs, ht⟩

/-- The record of a program does not depend on the memory that collects it, and the memory stays
sound. -/
theorem collect_same (program : Node) (hc : c.Sound) (hd : d.Sound) :
    SameFact (collect program c) (collect program d) := by
  have alike (nodes : List Node) : ∀ {s t : State}, s.Alike t →
      (nodes.foldl (visit (reserved program)) s).Alike
        (nodes.foldl (visit (reserved program)) t) := by
    induction nodes with
    | nil => exact fun alike => alike
    | cons node rest ih => exact fun alike => ih (visit_alike _ alike node)
  obtain ⟨recordEq, left, right⟩ :=
    alike program.walk (s := { cache := c }) (t := { cache := d }) ⟨rfl, hc, hd⟩
  exact ⟨recordEq, left, right⟩

end Facts

namespace Inference

/-- What can be asked of one memory. -/
inductive Request where
  /-- The shape of an expression in a context. -/
  | infer (context : Context) (node : Node)
  /-- The record of a whole program. -/
  | collect (program : Node)
  /-- To forget everything. -/
  | clear

namespace Request

/-- The shape that a request is answered with, if it asks for one, and the memory behind. -/
def serve : Request → Cache → Option Shape × Cache
  | .infer context node, cache =>
    (some (typeOf context node cache).1, (typeOf context node cache).2)
  | .collect program, cache => (none, (Facts.collect program cache).2)
  | .clear, _ => (none, .empty)

/-- The answer that the recursion gives. -/
def plainAnswer : Request → Option Shape
  | .infer context node => some (plain context node)
  | .collect _ => none
  | .clear => none

/-- The shapes that requests are answered with one after the other, and the memory behind. -/
def serveAll : List Request → Cache → List Shape × Cache
  | [], cache => ([], cache)
  | request :: rest, cache =>
    let (answer, cache) := request.serve cache
    let (answers, cache) := serveAll rest cache
    (answer.toList ++ answers, cache)

/-- A sound memory serves a request as the recursion does, and stays sound. -/
theorem serve_sound (request : Request) {cache : Cache} (sound : cache.Sound) :
    (request.serve cache).1 = request.plainAnswer ∧ (request.serve cache).2.Sound := by
  cases request with
  | infer context node =>
    have gives := typeOf_gives context node sound
    exact ⟨congrArg some gives.shape_eq, gives.sound⟩
  | collect program => exact ⟨rfl, (Facts.collect_same program sound sound).sound_left⟩
  | clear => exact ⟨rfl, Cache.sound_empty⟩

/-- A sound memory serves every sequence of requests as the recursion does, and stays sound. -/
theorem serveAll_sound (requests : List Request) :
    ∀ {cache : Cache}, cache.Sound →
      (serveAll requests cache).1 = requests.filterMap plainAnswer ∧
        (serveAll requests cache).2.Sound := by
  induction requests with
  | nil => exact fun sound => ⟨rfl, sound⟩
  | cons request rest ih =>
    intro cache sound
    obtain ⟨answerEq, sound⟩ := request.serve_sound sound
    obtain ⟨answersEq, sound⟩ := ih sound
    refine ⟨?_, sound⟩
    simp only [serveAll, answerEq, answersEq]
    cases answer : request.plainAnswer with
    | none => simp [answer]
    | some shape => simp [answer]

end Request

/-- Memory is invisible: whatever was asked before, every shape is that of the recursion, and every
record and every annotated text is the one that an empty memory gives. -/
theorem memory_invisible (history : List Request) :
    (Request.serveAll history .empty).1 = history.filterMap Request.plainAnswer ∧
      (∀ program : Node,
        (Facts.collect program (Request.serveAll history .empty).2).1 =
          (Facts.collect program .empty).1) ∧
      ∀ (dialect : Dialect) (layout : Layout) (source : Text),
        (Transpiled.ofSource dialect layout source (Request.serveAll history .empty).2).map
            Prod.fst =
          (Transpiled.ofSource dialect layout source .empty).map Prod.fst := by
  obtain ⟨answersEq, sound⟩ := Request.serveAll_sound history Cache.sound_empty
  have recordEq (program : Node) :=
    (Facts.collect_same program sound Cache.sound_empty).fact_eq
  refine ⟨answersEq, recordEq, fun dialect layout source => ?_⟩
  unfold Transpiled.ofSource
  cases Source.read dialect source with
  | error e => rfl
  | ok program =>
    simp only [Transpiled.ofProgram, recordEq program]
    cases Gloss.annotate (Facts.collect program .empty).1 program with
    | error m => rfl
    | ok annotated =>
      cases printed : annotated.print layout with
      | error e => simp only [printed]
      | ok text => simp only [printed]; rfl

end Inference

end TypeGloss
