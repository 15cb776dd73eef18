import TypeGloss.Proofs.Gloss

/-!
# Which programs a record fits

A record is held against a program in stages: how many declarations there are, then each keyword or
name together with the number of names it binds, then these names one by one. Taken together the
stages compare two skeletons, that of the program and that of the program the record was made for.
Nothing else is compared, and nothing else can go wrong: every shape of a record has type syntax.
-/

namespace TypeGloss

/-- What a declaration is recognised by. -/
structure Heading where
  /-- The keyword of a variable declaration, or the name of a function. -/
  word : Text
  /-- The names of the variables or of the parameters. -/
  names : List Text
  deriving DecidableEq, Repr

/-- The headings of the declarations of a program, in pre-order. -/
structure Skeleton where
  /-- The headings of the variable declarations. -/
  declarations : List Heading
  /-- The headings of the function declarations. -/
  functions : List Heading
  deriving DecidableEq, Repr

/-- The heading of a declaration. -/
def Node.heading : Node → Heading
  | .variableDeclaration _ keyword declared =>
    ⟨keyword, declared.map fun d => (Gloss.declaredBy d).name⟩
  | .functionDeclaration _ name params _ _ => ⟨name.functionName, params.map (·.bound.name)⟩
  | _ => ⟨[], []⟩

/-- The skeleton of a program. -/
def Node.skeleton (program : Node) : Skeleton where
  declarations := (program.preorder.filter Gloss.isDeclaration).map heading
  functions := (program.preorder.filter Gloss.isFunction).map heading

/-- The heading of the variable declaration that a fact is about. -/
def DeclarationFact.heading (fact : DeclarationFact) : Heading :=
  ⟨fact.keyword, fact.declarators.map DeclaratorFact.name⟩

/-- The heading of the function declaration that a fact is about. -/
def FunctionFact.heading (fact : FunctionFact) : Heading :=
  ⟨fact.name, fact.params.map Prod.fst⟩

/-- The skeleton of the program that a record is about. -/
def Record.skeleton (record : Record) : Skeleton where
  declarations := record.declarations.map DeclarationFact.heading
  functions := record.functions.map FunctionFact.heading

/-- Whether a mismatch is one between headings, and not about a shape without type syntax. -/
def Mismatch.isStructural : Mismatch → Bool
  | .count .. | .declaration .. | .variableName .. | .function .. | .paramName .. => true
  | .unknownInterface .. | .emptyArray | .noShape | .notObject .. => false

namespace Gloss

/-- An outcome that tells whether something agrees: a structural mismatch exactly if it does not. -/
inductive Decides (agree : Prop) {Out : Type} : Except Mismatch Out → Prop
  | accepts (agrees : agree) (out : Out) : Decides agree (.ok out)
  | rejects (differs : ¬ agree) {mismatch : Mismatch}
      (structural : mismatch.isStructural = true) : Decides agree (.error mismatch)

namespace Decides

variable {agree other : Prop} {Out Next : Type} {outcome : Except Mismatch Out}

theorem congr (decides : Decides agree outcome) (same : agree ↔ other) : Decides other outcome :=
  propext same ▸ decides

theorem of_ok {out : Out} (succeeds : outcome = .ok out) : Decides True outcome :=
  succeeds ▸ .accepts trivial out

/-- Two stages together tell whether both things agree. The second is not reached if the first
finds a mismatch. -/
theorem bind (decides : Decides agree outcome) {next : Out → Except Mismatch Next}
    (decidesNext : agree → ∀ out, Decides other (next out)) :
    Decides (agree ∧ other) (outcome >>= next) := by
  cases decides with
  | accepts agrees out =>
    exact (decidesNext agrees out).congr (and_iff_right agrees).symm
  | rejects differs structural => exact .rejects (fun both => differs both.1) structural

/-- A last stage that always succeeds changes nothing. -/
theorem map (decides : Decides agree outcome) {next : Out → Except Mismatch Next}
    (succeeds : ∀ out, ∃ result, next out = .ok result) : Decides agree (outcome >>= next) := by
  refine (decides.bind fun _ out => ?_).congr (iff_of_eq (and_true agree))
  obtain ⟨result, done⟩ := succeeds out
  exact of_ok done

theorem ok_iff (decides : Decides agree outcome) : (∃ out, outcome = .ok out) ↔ agree := by
  cases decides with
  | accepts agrees out => exact iff_of_true ⟨out, rfl⟩ agrees
  | rejects differs => exact iff_of_false nofun differs

theorem error_of_not (decides : Decides agree outcome) (differs : ¬ agree) :
    ∃ mismatch, outcome = .error mismatch ∧ mismatch.isStructural = true := by
  cases decides with
  | accepts agrees => exact absurd agrees differs
  | rejects _ structural => exact ⟨_, rfl, structural⟩

end Decides

section Stages

variable {known : List Text}

theorem checkCount_decides (what : Counted) (listed found : Nat) :
    Decides (listed = found) (checkCount what listed found) := by
  unfold checkCount
  split
  next same => exact .accepts same ()
  next differs => exact .rejects differs rfl

/-- The names of identifiers are held against those of as many facts. -/
theorem slotTypes_decides (wrongName : Location → Text → Text → Mismatch)
    (structural : ∀ loc expected found, (wrongName loc expected found).isStructural = true)
    (identifiers : List Node) (facts : List (Text × Shape))
    (counted : identifiers.length = facts.length)
    (annotates : ∀ fact ∈ facts, fact.2.Annotates known) :
    Decides (identifiers.map Node.name = facts.map Prod.fst)
      (slotTypes known wrongName identifiers facts) := by
  induction identifiers generalizing facts with
  | nil =>
    obtain rfl := List.length_eq_zero_iff.mp counted.symm
    exact .accepts rfl []
  | cons identifier identifiers ih =>
    obtain _ | ⟨⟨name, shape⟩, facts⟩ := facts
    · cases counted
    obtain ⟨here, others⟩ := List.forall_mem_cons.mp annotates
    rw [slotTypes, slotType_eq here, List.map_cons, List.map_cons]
    by_cases sameName : identifier.name = name
    · rw [if_neg (not_not.mpr sameName)]
      refine ((ih facts (Nat.succ.inj counted) others).map fun _ => ⟨_, rfl⟩).congr ?_
      rw [List.cons.injEq, and_iff_right sameName]
    · rw [if_pos sameName]
      exact .rejects (fun same => sameName (List.cons.inj same).1) (structural ..)

/-- A variable declaration is held against a fact. -/
theorem declarationTypes_decides {node : Node} (declares : isDeclaration node = true)
    {fact : DeclarationFact} (annotates : ∀ d ∈ fact.declarators, d.typing.Annotates known) :
    Decides (node.heading = fact.heading) (declarationTypes known node fact) := by
  cases node with
  | variableDeclaration loc keyword declared =>
    rw [declarationTypes]
    simp only [Node.heading, DeclarationFact.heading, Heading.mk.injEq]
    split
    next differs =>
      refine .rejects (fun same => ?_) rfl
      rcases differs with keywords | counts
      · exact keywords same.1
      · exact counts (by simpa using congrArg List.length same.2)
    next same =>
      obtain ⟨sameKeyword, sameCount⟩ := not_or.mp same
      have names := slotTypes_decides .variableName (fun loc expected found => rfl)
        (declared.map declaredBy) (fact.declarators.map fun d => (d.name, d.typing))
        (by simpa using sameCount) (List.forall_mem_map.mpr annotates)
      simp only [List.map_map] at names
      exact names.congr (and_iff_right (not_not.mp sameKeyword)).symm
  | _ => cases declares

/-- A function declaration is held against a fact. -/
theorem functionTypes_decides {node : Node} (declares : isFunction node = true)
    {fact : FunctionFact} (annotates : ∀ param ∈ fact.params, param.2.Annotates known)
    (annotatesResult : fact.result.Annotates known) :
    Decides (node.heading = fact.heading) (functionTypes known node fact) := by
  cases node with
  | functionDeclaration loc name params body result =>
    rw [functionTypes]
    simp only [Node.heading, FunctionFact.heading, Heading.mk.injEq]
    split
    next differs =>
      refine .rejects (fun same => ?_) rfl
      rcases differs with names | counts
      · exact names same.1
      · exact counts (by simpa using congrArg List.length same.2)
    next same =>
      obtain ⟨sameName, sameCount⟩ := not_or.mp same
      have names := slotTypes_decides .paramName (fun loc expected found => rfl)
        (params.map Node.bound) fact.params (by simpa using sameCount) annotates
      simp only [List.map_map] at names
      refine (names.map fun types => ?_).congr (and_iff_right (not_not.mp sameName)).symm
      rw [slotType_eq annotatesResult]
      exact ⟨_, rfl⟩
  | _ => cases declares

/-- Nodes are held against as many facts, one by one. -/
theorem pairwise_decides {Fact Out : Type} {work : Node → Fact → Except Mismatch Out}
    (heading : Fact → Heading) {nodes : List Node} {facts : List Fact}
    (counted : nodes.length = facts.length)
    (each : ∀ node ∈ nodes, ∀ fact ∈ facts,
      Decides (node.heading = heading fact) (work node fact)) :
    Decides (nodes.map Node.heading = facts.map heading) (pairwise work nodes facts) := by
  induction nodes generalizing facts with
  | nil =>
    obtain rfl := List.length_eq_zero_iff.mp counted.symm
    exact .accepts rfl []
  | cons node nodes ih =>
    obtain _ | ⟨fact, facts⟩ := facts
    · cases counted
    have first := each node List.mem_cons_self fact List.mem_cons_self
    have rest := ih (Nat.succ.inj counted) fun node mem fact listed =>
      each node (List.mem_cons_of_mem _ mem) fact (List.mem_cons_of_mem _ listed)
    rw [pairwise, List.map_cons, List.map_cons, List.cons.injEq]
    exact first.bind fun _ out => rest.map fun _ => ⟨_, rfl⟩

end Stages

/-- A record whose shapes all have type syntax. -/
structure Writable (record : Record) : Prop where
  declarations : ∀ fact ∈ record.declarations, ∀ d ∈ fact.declarators,
    d.typing.Annotates record.interfaces.keys
  params : ∀ fact ∈ record.functions, ∀ param ∈ fact.params,
    param.2.Annotates record.interfaces.keys
  results : ∀ fact ∈ record.functions, fact.result.Annotates record.interfaces.keys
  interfaces : ∀ entry ∈ record.interfaces, ∃ node : Node, node.isObject = true ∧
    entry.2 = Inference.plain [] node

variable {record : Record}

/-- The stages of a plan compare the skeletons of the program and of the record. -/
theorem plan_decides (writable : Writable record) (program : Node) :
    Decides (program.skeleton = record.skeleton)
      (plan record.interfaces.keys record program) := by
  have declarations (counted : record.declarations.length =
      (program.walk.filter isDeclaration).length) :=
    pairwise_decides DeclarationFact.heading counted.symm fun node mem fact listed =>
      declarationTypes_decides (List.mem_filter.mp mem).2 (writable.declarations fact listed)
  have functions (counted : record.functions.length = (program.walk.filter isFunction).length) :=
    pairwise_decides FunctionFact.heading counted.symm fun node mem fact listed =>
      functionTypes_decides (List.mem_filter.mp mem).2 (writable.params fact listed)
        (writable.results fact listed)
  refine ((checkCount_decides _ _ _).bind fun declarationCount _ =>
    (checkCount_decides _ _ _).bind fun functionCount _ =>
      (declarations declarationCount).bind fun _ _ =>
        (functions functionCount).map fun _ => ⟨_, rfl⟩).congr ?_
  simp only [Node.skeleton, Record.skeleton, Skeleton.mk.injEq, ← Node.walk_eq_preorder]
  -- Lists of headings that agree have the same length, so the counts add nothing.
  constructor
  · rintro ⟨-, -, same⟩
    exact same
  · intro same
    exact ⟨by simpa using (congrArg List.length same.1).symm,
      by simpa using (congrArg List.length same.2).symm, same⟩

/-- A record is accepted for the trees with its skeleton. -/
theorem annotate_decides (writable : Writable record) (program : Node) :
    Decides (program.skeleton = record.skeleton) (annotate record program) := by
  obtain ⟨created, written, -⟩ := interfaces_eq record.interfaces.keys writable.interfaces
  rw [annotate, annotateWith, keys_map_some, written]
  exact (plan_decides writable program).map fun _ => ⟨_, rfl⟩

section Collected

variable {program : Node}

theorem writable_of_isRecordOf (isRecord : Facts.IsRecordOf program record) :
    Writable record where
  declarations fact listed := by
    rw [isRecord.declarations_eq] at listed
    obtain ⟨node, mem, rfl⟩ := List.mem_map.mp listed
    obtain ⟨visited, declares⟩ := List.mem_filter.mp mem
    exact fun d inside => isRecord.annotates visited declares inside
  params fact listed := by
    rw [isRecord.functions] at listed
    obtain ⟨node, -, rfl⟩ := List.mem_map.mp listed
    exact fun param inside => .concrete ((Facts.concrete_functionFact node).1 param inside)
  results fact listed := by
    rw [isRecord.functions] at listed
    obtain ⟨node, -, rfl⟩ := List.mem_map.mp listed
    exact .concrete (Facts.concrete_functionFact node).2
  interfaces := isRecord.interfaces.literal

theorem heading_declarationFact {reserved : List Text} {table : Table Text Shape} {node : Node}
    (binds : bindsNames node = true) (declares : isDeclaration node = true) :
    (Facts.declarationFact reserved table node).heading = node.heading := by
  cases node with
  | variableDeclaration loc keyword declared =>
    simp only [Facts.declarationFact, DeclarationFact.heading, Node.heading,
      filter_isDeclarator binds, List.map_map, Heading.mk.injEq, true_and]
    refine List.map_congr_left fun d mem => ?_
    obtain ⟨declLoc, nameLoc, wrapped, name, typing, initializer, rfl⟩ :=
      declaresName_iff.mp (List.all_eq_true.mp binds d mem)
    rfl
  | _ => cases declares

theorem heading_functionFact {node : Node} (declares : isFunction node = true) :
    (Facts.functionFact node).heading = node.heading := by
  cases node with
  | functionDeclaration loc name params body result =>
    simp only [Facts.functionFact, FunctionFact.heading, Node.heading, List.map_map]
    rfl
  | _ => cases declares

/-- The record of a program has the program's skeleton. -/
theorem skeleton_of_isRecordOf (isRecord : Facts.IsRecordOf program record)
    (binds : ∀ node ∈ program.walk, bindsNames node = true) :
    record.skeleton = program.skeleton := by
  simp only [Record.skeleton, Node.skeleton, isRecord.declarations_eq, isRecord.functions,
    List.map_map, Skeleton.mk.injEq, ← Node.walk_eq_preorder]
  refine ⟨List.map_congr_left fun node mem => ?_, List.map_congr_left fun node mem => ?_⟩
  · obtain ⟨visited, declares⟩ := List.mem_filter.mp mem
    exact heading_declarationFact (binds node visited) declares
  · exact heading_functionFact (List.mem_filter.mp mem).2

end Collected

/-- The record of a program annotates exactly the trees with the program's skeleton: as many
variable declarations, with the same keywords and the same names in the same order, and as many
function declarations, with the same names and the same parameters. For any other tree there is a
mismatch between headings. -/
theorem annotate_iff_skeleton (dialect : Dialect) (source : Text)
    (history : List Inference.Request) {program : Node}
    (read : Source.read dialect source = .ok program) (other : Node) :
    let record := (Facts.collect program (Inference.Request.serveAll history .empty).2).1
    ((∃ tree, annotate record other = .ok tree) ↔ other.skeleton = program.skeleton) ∧
      (other.skeleton ≠ program.skeleton →
        ∃ mismatch, annotate record other = .error mismatch ∧ mismatch.isStructural = true) := by
  intro record
  have sound := (Inference.Request.serveAll_sound history Cache.sound_empty).2
  obtain ⟨ts, reads⟩ := Source.reads_of_read read
  have isRecord := Facts.collect_lists program sound
  have bound := Node.walk_of_every (binds_of_fits reads.fits)
  have decides := annotate_decides (writable_of_isRecordOf isRecord) other
  rw [skeleton_of_isRecordOf isRecord fun node visited => (bound node visited).names] at decides
  exact ⟨decides.ok_iff, decides.error_of_not⟩

/-- The record of a program annotates another one that starts its variable with another value, and
rejects one that gives the variable another name. -/
theorem annotate_iff_skeleton_renamed :
    ∃ program same renamed, Source.read .typescript "let x=1" = .ok program ∧
      Source.read .typescript "let x=[2]" = .ok same ∧
      Source.read .typescript "let y=1" = .ok renamed ∧
      (∃ tree, annotate (Facts.collect program .empty).1 same = .ok tree) ∧
      ∃ mismatch, annotate (Facts.collect program .empty).1 renamed = .error mismatch := by
  obtain ⟨program, read, skeleton⟩ : ∃ program, Source.read .typescript "let x=1" = .ok program ∧
      program.skeleton = ⟨[⟨"let", ["x"]⟩], []⟩ := ⟨_, rfl, rfl⟩
  obtain ⟨same, readSame, sameSkeleton⟩ : ∃ same, Source.read .typescript "let x=[2]" = .ok same ∧
      same.skeleton = ⟨[⟨"let", ["x"]⟩], []⟩ := ⟨_, rfl, rfl⟩
  obtain ⟨renamed, readRenamed, renamedSkeleton⟩ :
      ∃ renamed, Source.read .typescript "let y=1" = .ok renamed ∧
        renamed.skeleton = ⟨[⟨"let", ["y"]⟩], []⟩ := ⟨_, rfl, rfl⟩
  have accepts := (annotate_iff_skeleton .typescript "let x=1" [] read same).1
  have rejects := (annotate_iff_skeleton .typescript "let x=1" [] read renamed).2
  rw [skeleton, sameSkeleton] at accepts
  rw [skeleton, renamedSkeleton] at rejects
  obtain ⟨mismatch, rejected, -⟩ := rejects (by decide)
  exact ⟨program, same, renamed, read, readSame, readRenamed, accepts.mpr rfl, mismatch, rejected⟩

end Gloss

end TypeGloss
