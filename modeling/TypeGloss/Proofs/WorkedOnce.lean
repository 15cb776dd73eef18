import TypeGloss.Proofs.Lookups

/-!
# No shape is worked out twice

While a shape is worked out, only fingerprints of smaller expressions are looked up. So none of them
is the one that is still missing, and it is kept once. In every state of a memory there is one entry
for each miss, and an expression whose fingerprint was asked for before is a hit and nothing else.
-/

namespace TypeGloss

namespace Facts

section Kept

variable {kept : Cache → Prop}
  (step : ∀ context node cache, kept cache → kept (Inference.typeOf context node cache).2)

include step

private theorem result_keeps (context : Context) (arguments : List Node) :
    ∀ found : Shape × Cache, kept found.2 →
      kept (arguments.foldl (fun (_, cache) argument => Inference.typeOf context argument cache)
        found).2 := by
  induction arguments with
  | nil => exact fun _ holds => holds
  | cons argument rest ih => exact fun found holds => ih _ (step context argument found.2 holds)

private theorem properties_keeps (members : List Node) :
    ∀ cache, kept cache → kept (properties members cache).2 := by
  induction members with
  | nil => exact fun _ holds => holds
  | cons member rest ih =>
    intro cache holds
    cases member with
    | property loc key value shorthand => exact ih _ (step [] value cache holds)
    | _ => exact ih cache holds

private theorem declarators_keeps (reserved : List Text) (nodes : List Node) :
    ∀ state : State, kept state.cache → kept (declarators reserved nodes state).2.cache := by
  induction nodes with
  | nil => exact fun _ holds => holds
  | cons node rest ih =>
    intro state holds
    cases node with
    | declarator loc name initializer => exact ih _ (step [] initializer state.cache holds)
    | _ => exact ih state holds

theorem visit_keeps (reserved : List Text) (state : State) (node : Node)
    (holds : kept state.cache) : kept (visit reserved state node).cache := by
  cases node with
  | variableDeclaration loc keyword declared => exact declarators_keeps step _ declared state holds
  | functionDeclaration loc name params body result =>
    exact result_keeps step _ _ (.void, state.cache) holds
  | returnStatement loc argument =>
    by_cases absent : argument.isAbsent = true
    · simpa only [visit, if_pos absent] using holds
    · simpa only [visit, if_neg absent] using step [] argument state.cache holds
  | object loc wrapped members =>
    exact step [] (.object loc wrapped members) _
      (properties_keeps step members state.cache holds)
  | array loc wrapped elements =>
    exact step [] (.array loc wrapped elements) state.cache holds
  | _ => exact holds

/-- What a memory keeps whenever a shape is asked for, it keeps while a record is collected. -/
theorem collect_keeps (program : Node) (cache : Cache) (holds : kept cache) :
    kept (collect program cache).2 := by
  have walked (nodes : List Node) : ∀ state : State, kept state.cache →
      kept (nodes.foldl (visit (reserved program)) state).cache := by
    induction nodes with
    | nil => exact fun _ holds => holds
    | cons node rest ih => exact fun state holds => ih _ (visit_keeps step _ state node holds)
  exact walked program.walk { cache } holds

end Kept

end Facts

namespace Node

/-- Whether the shape of a node is worked out. Every other node can be anything. -/
def isModelled : Node → Bool
  | .number .. | .string .. | .boolean .. | .null .. | .object .. | .array .. | .binary ..
  | .identifier .. => true
  | _ => false

/-- The fingerprint of a node tells whether its shape is worked out. -/
theorem isWanted_fingerprint (context : Context) (node : Node) :
    (node.fingerprint context).isWanted = node.isModelled := by
  cases node with
  | binary loc wrapped operator left right => exact (Fingerprint.isWanted_link _ _ _).1
  | _ => simp [fingerprint, Fingerprint.isWanted, isModelled, kindName]

end Node

namespace Cache

/-- A memory with one entry for each miss, all of them right, and with the parts of each. -/
structure Settled (cache : Cache) : Prop where
  sound : cache.Sound
  closed : cache.Closed
  nodup : cache.keys.Nodup
  size_eq : cache.size = cache.misses

theorem settled_empty : Cache.empty.Settled := ⟨sound_empty, nofun, List.nodup_nil, rfl⟩

theorem remember_of_mem {cache : Cache} {fingerprint : Fingerprint}
    (there : fingerprint ∈ cache.keys) (work : Cache → Shape × Cache) :
    (cache.remember fingerprint work).2 = cache.hit := by
  unfold remember
  cases found : cache.find? fingerprint with
  | some shape => rfl
  | none => exact absurd there (find?_eq_none.mp found)

end Cache

namespace Inference

open Cache (Settled)

/-- The shape of a node that is worked out is looked up first. -/
theorem typeOf_remembers (context : Context) {node : Node} (modelled : node.isModelled = true)
    (cache : Cache) :
    ∃ work, typeOf context node cache = cache.remember (node.fingerprint context) work := by
  unfold typeOf
  cases node with
  | number | string | boolean | null | identifier | object | array =>
    rw [infer]
    exact ⟨_, rfl⟩
  | binary =>
    rw [infer, if_neg Bool.false_ne_true]
    exact ⟨_, rfl⟩
  | _ => cases modelled

/-- An expression whose fingerprint has a shape is a hit, and nothing else. -/
theorem typeOf_of_mem {context : Context} {node : Node} {cache : Cache}
    (modelled : node.isModelled = true) (there : node.fingerprint context ∈ cache.keys) :
    (typeOf context node cache).2 = cache.hit := by
  obtain ⟨work, remembers⟩ := typeOf_remembers context modelled cache
  rw [remembers, Cache.remember_of_mem there]

section Settled

variable {cache : Cache} (settled : cache.Settled)

include settled

theorem typeOf_looked (context : Context) (node : Node) :
    Cache.Looked ([node.fingerprint context].filter Fingerprint.isWanted) cache
      (typeOf context node cache).2 :=
  (infer_looks context false node cache settled.sound).looked settled.closed settled.nodup

theorem typeOf_settled (context : Context) (node : Node) :
    (typeOf context node cache).2.Settled := by
  have looked := typeOf_looked settled context node
  have misses := looked.misses
  rw [settled.size_eq] at misses
  exact ⟨(typeOf_gives context node settled.sound).sound, looked.closed settled.closed,
    looked.nodup, by omega⟩

theorem typeOf_keeps_keys (context : Context) (node : Node) :
    cache.keys ⊆ (typeOf context node cache).2.keys :=
  fun key mem => ((typeOf_looked settled context node).keys key).mpr (.inl mem)

/-- The fingerprint of an expression that was asked for has a shape. -/
theorem fingerprint_mem_keys {context : Context} {node : Node}
    (modelled : node.isModelled = true) :
    node.fingerprint context ∈ (typeOf context node cache).2.keys := by
  rw [← node.isWanted_fingerprint context] at modelled
  refine ((typeOf_looked settled context node).keys _).mpr (.inr ⟨_, ?_, .refl⟩)
  exact List.mem_filter.mpr ⟨List.mem_singleton_self _, modelled⟩

end Settled

namespace Request

/-- A request leaves a settled memory behind, and forgets nothing unless it asks for that. -/
theorem serve_settled (request : Request) {cache : Cache} (settled : cache.Settled) :
    (request.serve cache).2.Settled ∧
      (request ≠ .clear → cache.keys ⊆ (request.serve cache).2.keys) := by
  cases request with
  | infer context node =>
    exact ⟨typeOf_settled settled context node, fun _ => typeOf_keeps_keys settled context node⟩
  | collect program =>
    have step (context : Context) (node : Node) (last : Cache)
        (before : last.Settled ∧ cache.keys ⊆ last.keys) :
        (typeOf context node last).2.Settled ∧ cache.keys ⊆ (typeOf context node last).2.keys :=
      ⟨typeOf_settled before.1 context node,
        List.Subset.trans before.2 (typeOf_keeps_keys before.1 context node)⟩
    obtain ⟨still, more⟩ := Facts.collect_keeps step program cache ⟨settled, List.Subset.refl _⟩
    exact ⟨still, fun _ => more⟩
  | clear => exact ⟨Cache.settled_empty, fun other => absurd rfl other⟩

theorem serveAll_settled (requests : List Request) {cache : Cache} (settled : cache.Settled) :
    (serveAll requests cache).2.Settled ∧
      (.clear ∉ requests → cache.keys ⊆ (serveAll requests cache).2.keys) := by
  induction requests generalizing cache with
  | nil => exact ⟨settled, fun _ => List.Subset.refl _⟩
  | cons request rest ih =>
    have here := request.serve_settled settled
    have later := ih here.1
    refine ⟨later.1, fun noClear => ?_⟩
    obtain ⟨first, others⟩ := not_or.mp (noClear ∘ List.mem_cons.mpr)
    exact List.Subset.trans (here.2 (Ne.symm first)) (later.2 others)

/-- Whatever was asked before, a memory has one entry for each miss. Once the shape of an expression
was asked for, and as long as nothing is forgotten, every expression with the same fingerprint adds
one hit, and neither a miss nor an entry. -/
theorem serveAll_worksOnce (history : List Request) :
    let cache := (serveAll history .empty).2
    cache.keys.Nodup ∧ cache.size = cache.misses ∧
      ∀ (context : Context) (node : Node), node.isModelled = true →
        ∀ between : List Request, .clear ∉ between →
          ∀ (otherContext : Context) (other : Node),
            other.fingerprint otherContext = node.fingerprint context →
              let before := (serveAll between (typeOf context node cache).2).2
              let after := (typeOf otherContext other before).2
              after.hits = before.hits + 1 ∧ after.misses = before.misses ∧
                after.entries = before.entries := by
  intro cache
  have settled : cache.Settled := (serveAll_settled history Cache.settled_empty).1
  refine ⟨settled.nodup, settled.size_eq, ?_⟩
  intro context node modelled between noClear otherContext other same before after
  have asked : node.fingerprint context ∈ (typeOf context node cache).2.keys :=
    fingerprint_mem_keys settled modelled
  have kept := (serveAll_settled between (typeOf_settled settled context node)).2 noClear asked
  have otherModelled : other.isModelled = true := by
    rw [← other.isWanted_fingerprint otherContext, same, node.isWanted_fingerprint, modelled]
  have hit : after = before.hit := typeOf_of_mem otherModelled (same ▸ kept)
  rw [hit]
  exact ⟨rfl, rfl, rfl⟩

/-- An array that is asked for again elsewhere, behind a program that holds its element. -/
theorem serveAll_worksOnce_array :
    let array (loc : Location) : Node := .array loc false [.number loc true "1"]
    let program := Node.program .synthetic
      [.returnStatement .synthetic (.number .synthetic false "1")]
    let before := (serveAll [.collect program] (typeOf [] (array ⟨1, 1⟩) .empty).2).2
    before.hits = 1 ∧ before.misses = 2 ∧ before.size = 2 ∧
      (typeOf [("a", .void)] (array ⟨2, 1⟩) before).2.hits = 2 ∧
      (typeOf [("a", .void)] (array ⟨2, 1⟩) before).2.misses = 2 := by
  intro array program before
  have counted : before.hits = 1 ∧ before.misses = 2 ∧ before.size = 2 := by decide +kernel
  obtain ⟨hits, misses, -⟩ := (serveAll_worksOnce []).2.2 [] (array ⟨1, 1⟩) rfl [.collect program]
    (by simp) [("a", .void)] (array ⟨2, 1⟩) rfl
  exact ⟨counted.1, counted.2.1, counted.2.2, hits.trans (congrArg (· + 1) counted.1),
    misses.trans counted.2.1⟩

end Request

end Inference

end TypeGloss
