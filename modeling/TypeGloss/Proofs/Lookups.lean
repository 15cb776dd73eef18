import Mathlib.Algebra.GroupWithZero.Nat
import Mathlib.Data.List.Perm.Basic
import Mathlib.Logic.Relation
import TypeGloss.Proofs.Inference

/-!
# Orders of requests

A fingerprint determines what is looked up while its shape is worked out. So the table of a memory
is closed under these parts, and each fingerprint is worked out once. From an empty memory, the
fingerprints that are kept are those that the requests lead to, and the counters follow from them:
none of this depends on the order of the requests.
-/

namespace TypeGloss

namespace Fingerprint

/-- Whether expressions with a fingerprint are looked up. -/
def isWanted : Fingerprint → Bool
  | .undefined => false
  | .other kind => kind = "NullLiteral"
  | _ => true

/-- The right operands that are worked out with a chain. -/
def addends (links : List (Text × Fingerprint)) : List Fingerprint :=
  (links.filter fun link => link.1 = plusSign).map Prod.snd

/-- What is looked up while a shape is worked out, in order. -/
def parts : Fingerprint → List Fingerprint
  | .object fields => (fields.map Prod.snd).filter isWanted
  | .array elements => elements.filter isWanted
  | .chain first links => (first :: addends links).filter isWanted
  | _ => []

/-- What is looked up for the left operand of a chain, in order: an inner chain is not looked up
itself. -/
def spread : Fingerprint → List Fingerprint
  | .chain first links => (Fingerprint.chain first links).parts
  | fingerprint => [fingerprint].filter isWanted

/-- A link adds its right operand to the parts of a chain, if this is worked out. -/
theorem parts_link (left : Fingerprint) (operator : Text) (right : Fingerprint) :
    (left.link operator right).parts =
      left.spread ++ if operator = plusSign then [right].filter isWanted else [] := by
  have added (links : List (Text × Fingerprint)) : addends (links ++ [(operator, right)]) =
      addends links ++ if operator = plusSign then [right] else [] := by
    by_cases plus : operator = plusSign <;> simp [addends, plus]
  cases left with
  | chain first links =>
    rw [link, spread, parts, parts, added, ← List.cons_append, List.filter_append]
    split <;> rfl
  | _ =>
    rw [link, spread, parts, ← List.nil_append [(operator, right)], added, ← List.singleton_append,
      List.filter_append]
    · split <;> rfl
    all_goals rintro _ _ ⟨⟩

theorem isWanted_link (left : Fingerprint) (operator : Text) (right : Fingerprint) :
    (left.link operator right).isWanted = true ∧
      (left.link operator right).spread = (left.link operator right).parts := by
  cases left <;> exact ⟨rfl, rfl⟩

theorem sizeOf_lt_of_mem_parts {whole part : Fingerprint} (mem : part ∈ whole.parts) :
    sizeOf part < sizeOf whole := by
  have inField {fields : List (Text × Fingerprint)} {part : Fingerprint}
      (mem : part ∈ fields.map Prod.snd) : sizeOf part < sizeOf fields := by
    obtain ⟨⟨name, part⟩, inside, rfl⟩ := List.mem_map.mp mem
    have := List.sizeOf_lt_of_mem inside
    simp at this ⊢
    omega
  cases whole with
  | object fields =>
    have := inField (List.mem_of_mem_filter mem)
    simp
    omega
  | array elements =>
    have := List.sizeOf_lt_of_mem (List.mem_of_mem_filter mem)
    simp
    omega
  | chain first links =>
    rcases List.mem_cons.mp (List.mem_of_mem_filter mem) with rfl | mem
    · simp
      omega
    · obtain ⟨link, inside, rfl⟩ := List.mem_map.mp mem
      have := inField (List.mem_map_of_mem (List.mem_of_mem_filter inside))
      simp
      omega
  | _ => cases mem

/-- One fingerprint leads to another if this is among its parts, or among theirs in turn. -/
def Needs : Fingerprint → Fingerprint → Prop :=
  Relation.ReflTransGen fun whole part => part ∈ whole.parts

theorem Needs.sizeOf_le {whole part : Fingerprint} (needs : Needs whole part) :
    sizeOf part ≤ sizeOf whole := by
  induction needs with
  | refl => exact Nat.le_refl _
  | tail _ mem ih => exact Nat.le_trans (Nat.le_of_lt (sizeOf_lt_of_mem_parts mem)) ih

end Fingerprint

namespace Cache

open Fingerprint (Needs)

/-- The fingerprints with a shape. -/
def keys (cache : Cache) : List Fingerprint := cache.entries.map Prod.fst

theorem find?_eq_none {cache : Cache} {wanted : Fingerprint} :
    cache.find? wanted = none ↔ wanted ∉ cache.keys := by
  simp only [find?, Option.map_eq_none_iff, List.find?_eq_none, decide_eq_true_eq, keys,
    List.mem_map, not_exists, not_and]

/-- A run that looks up fingerprints one after the other. What is not there is worked out from its
parts, which are looked up before, and kept. -/
inductive Looks : List Fingerprint → Cache → Cache → Prop
  | nil {cache : Cache} : Looks [] cache cache
  | hit {wanted : Fingerprint} {rest : List Fingerprint} {cache last : Cache}
      (there : wanted ∈ cache.keys) (later : Looks rest cache.hit last) :
      Looks (wanted :: rest) cache last
  | miss {wanted : Fingerprint} {rest : List Fingerprint} {cache between last : Cache}
      (new : wanted ∉ cache.keys) (inner : Looks wanted.parts cache.miss between)
      (later : Looks rest (between.insert wanted wanted.shape) last) :
      Looks (wanted :: rest) cache last

theorem Looks.append {first rest : List Fingerprint} {cache between last : Cache}
    (looks : Looks first cache between) (later : Looks rest between last) :
    Looks (first ++ rest) cache last := by
  induction looks with
  | nil => exact later
  | hit there _ ih => exact .hit there (ih later)
  | miss new inner _ _ ih => exact .miss new inner (ih later)

/-- The number of look-ups that were needed to work out what is kept. -/
def weight (cache : Cache) : Nat := (cache.keys.map fun key => key.parts.length).sum

/-- A table that has the parts of all its fingerprints. -/
def Closed (cache : Cache) : Prop := ∀ key ∈ cache.keys, ∀ part ∈ key.parts, part ∈ cache.keys

theorem Closed.needs {cache : Cache} (closed : cache.Closed) {key part : Fingerprint}
    (mem : key ∈ cache.keys) (needs : Needs key part) : part ∈ cache.keys := by
  induction needs with
  | refl => exact mem
  | tail _ isPart ih => exact closed _ ih _ isPart

/-- What a run of look-ups does to the table and to the counters. -/
structure Looked (wanted : List Fingerprint) (cache last : Cache) : Prop where
  keys : ∀ key, key ∈ last.keys ↔ key ∈ cache.keys ∨ ∃ whole ∈ wanted, Needs whole key
  nodup : last.keys.Nodup
  misses : last.misses + cache.size = cache.misses + last.size
  lookups : last.hits + last.misses + cache.weight =
    cache.hits + cache.misses + wanted.length + last.weight

theorem Looked.closed {wanted : List Fingerprint} {cache last : Cache} (closed : cache.Closed)
    (looked : Looked wanted cache last) : last.Closed := by
  intro key mem part isPart
  rcases (looked.keys key).mp mem with old | ⟨whole, isWanted, needs⟩
  · exact (looked.keys part).mpr (.inl (closed key old part isPart))
  · exact (looked.keys part).mpr (.inr ⟨whole, isWanted, needs.tail isPart⟩)

/-- What is worked out is kept once, with its parts. -/
theorem Looked.insert {wanted : Fingerprint} {cache last : Cache} (new : wanted ∉ cache.keys)
    (looked : Looked wanted.parts cache.miss last) :
    Looked [wanted] cache (last.insert wanted wanted.shape) := by
  have isNew : wanted ∉ last.keys := by
    intro mem
    rcases (looked.keys wanted).mp mem with old | ⟨part, isPart, needs⟩
    · exact new old
    · exact absurd needs.sizeOf_le (Nat.not_le.mpr (Fingerprint.sizeOf_lt_of_mem_parts isPart))
  refine ⟨fun key => ?_, List.nodup_cons.mpr ⟨isNew, looked.nodup⟩, ?_, ?_⟩
  · have inner := looked.keys key
    change key ∈ wanted :: last.keys ↔ _
    rw [List.mem_cons, inner]
    constructor
    · rintro (rfl | old | ⟨part, isPart, needs⟩)
      · exact .inr ⟨key, List.mem_cons_self, .refl⟩
      · exact .inl old
      · exact .inr ⟨wanted, List.mem_cons_self, .head isPart needs⟩
    · rintro (old | ⟨whole, isWhole, needs⟩)
      · exact .inr (.inl old)
      · obtain rfl := List.mem_singleton.mp isWhole
        rcases needs.cases_head with rfl | ⟨part, isPart, needs⟩
        · exact .inl rfl
        · exact .inr (.inr ⟨part, isPart, needs⟩)
  · have misses := looked.misses
    simp only [Cache.miss, Cache.insert, size, List.length_cons] at misses ⊢
    omega
  · have lookups := looked.lookups
    simp only [Cache.miss, Cache.insert, weight, Cache.keys, List.map_cons, List.sum_cons,
      List.length_cons, List.length_nil] at lookups ⊢
    omega

theorem Looked.trans {first rest : List Fingerprint} {cache between last : Cache}
    (looked : Looked first cache between) (later : Looked rest between last) :
    Looked (first ++ rest) cache last := by
  refine ⟨fun key => ?_, later.nodup, ?_, ?_⟩
  · rw [later.keys, looked.keys]
    simp only [List.mem_append, or_and_right, exists_or, or_assoc]
  · have := looked.misses
    have := later.misses
    omega
  · have := looked.lookups
    have := later.lookups
    rw [List.length_append]
    omega

/-- Every run of look-ups on a closed table without repetitions keeps what is needed, once, and
counts it. -/
theorem Looks.looked {wanted : List Fingerprint} {cache last : Cache}
    (looks : Looks wanted cache last) (closed : cache.Closed) (nodup : cache.keys.Nodup) :
    Looked wanted cache last := by
  induction looks with
  | nil => exact ⟨by simp, nodup, rfl, rfl⟩
  | @hit wanted rest cache last there _ ih =>
    have hit : Looked [wanted] cache cache.hit := by
      refine ⟨fun key => ⟨.inl, ?_⟩, nodup, rfl, ?_⟩
      · rintro (old | ⟨whole, isWhole, needs⟩)
        · exact old
        · exact closed.needs (List.mem_singleton.mp isWhole ▸ there) needs
      · simp only [Cache.hit, weight, Cache.keys, List.length_cons, List.length_nil]
        omega
    exact hit.trans (ih closed nodup)
  | miss new _ _ ihInner ih =>
    have inserted := (ihInner closed nodup).insert new
    exact inserted.trans (ih (inserted.closed closed) inserted.nodup)

/-- Remembering a fingerprint is a look-up, if working it out looks up its parts. -/
theorem looks_remember {cache : Cache} {fingerprint : Fingerprint} {work : Cache → Shape × Cache}
    (gives : (cache.remember fingerprint work).1 = fingerprint.shape)
    (works : Looks fingerprint.parts cache.miss (work cache.miss).2) :
    Looks [fingerprint] cache (cache.remember fingerprint work).2 := by
  unfold remember at gives ⊢
  cases found : cache.find? fingerprint with
  | some shape =>
    refine .hit ?_ .nil
    by_contra new
    rw [find?_eq_none.mpr new] at found
    cases found
  | none =>
    simp only [found] at gives ⊢
    rw [gives]
    exact .miss (find?_eq_none.mp found) works .nil

end Cache

namespace Inference

open Cache (Looks)
open Fingerprint (isWanted)

/-- What is looked up for an expression with a fingerprint, in order. -/
def asked (fingerprint : Fingerprint) (inChain : Bool) : List Fingerprint :=
  if inChain then fingerprint.spread else [fingerprint].filter isWanted

private theorem looks_leaf {context : Context} {inChain : Bool} {node : Node} {cache : Cache}
    {shape : Shape} (sound : cache.Sound)
    (remembers : infer context inChain node cache =
      cache.remember (node.fingerprint context) (known shape))
    (leaf : (node.fingerprint context).parts = [])
    (isAsked : asked (node.fingerprint context) inChain = [node.fingerprint context]) :
    Looks (asked (node.fingerprint context) inChain) cache
      (infer context inChain node cache).2 := by
  have gives := (infer_gives context inChain node cache sound).shape_eq
  rw [← shape_fingerprint, remembers] at gives
  rw [isAsked, remembers]
  refine Cache.looks_remember gives ?_
  rw [leaf]
  exact .nil

mutual

/-- Inference looks up the fingerprint of an expression. In a chain it looks up what the inner chain
is worked out from. -/
theorem infer_looks (context : Context) (inChain : Bool) (node : Node) (cache : Cache)
    (sound : cache.Sound) :
    Looks (asked (node.fingerprint context) inChain) cache
      (infer context inChain node cache).2 := by
  cases node with
  | object loc wrapped properties =>
    have gives :=
      (infer_gives context inChain (.object loc wrapped properties) cache sound).shape_eq
    rw [← shape_fingerprint, infer] at gives
    have looks := Cache.looks_remember gives
      (inferProperties_looks context properties cache.miss sound.miss)
    rw [infer]
    cases inChain <;> exact looks
  | array loc wrapped elements =>
    have gives := (infer_gives context inChain (.array loc wrapped elements) cache sound).shape_eq
    rw [← shape_fingerprint, infer] at gives
    have looks := Cache.looks_remember gives
      (inferAll_looks context elements cache.miss sound.miss)
    rw [infer]
    cases inChain <;> exact looks
  | binary loc wrapped operator left right =>
    -- The work is the same in a chain, where it is done at once, and outside.
    have works (cache : Cache) (sound : cache.Sound) :
        Looks (Node.fingerprint context (.binary loc wrapped operator left right)).parts cache
          (if operator = plusSign then
            ((infer context true left cache).1.plus
              (infer context false right (infer context true left cache).2).1,
             (infer context false right (infer context true left cache).2).2)
          else (.any, (infer context true left cache).2)).2 := by
      have leftLooks := infer_looks context true left cache sound
      have rightLooks := infer_looks context false right _
        (infer_gives context true left cache sound).sound
      rw [Node.fingerprint, Fingerprint.parts_link]
      by_cases plus : operator = plusSign
      · rw [if_pos plus, if_pos plus]
        exact leftLooks.append rightLooks
      · rw [if_neg plus, if_neg plus, List.append_nil]
        exact leftLooks
    obtain ⟨wanted, spread⟩ := Fingerprint.isWanted_link (left.fingerprint context) operator
      (right.fingerprint context)
    cases inChain with
    | true =>
      rw [infer, asked, if_pos rfl, Node.fingerprint, spread]
      exact works cache sound
    | false =>
      have gives := (infer_gives context false (.binary loc wrapped operator left right) cache
        sound).shape_eq
      rw [← shape_fingerprint, infer, if_neg Bool.false_ne_true] at gives
      rw [infer, asked, if_neg Bool.false_ne_true, if_neg Bool.false_ne_true,
        List.filter_cons_of_pos (p := isWanted) (by rw [Node.fingerprint]; exact wanted)]
      exact Cache.looks_remember gives (works cache.miss sound.miss)
  | number | string | boolean | null | identifier =>
    exact looks_leaf sound (by rw [infer]) rfl (by cases inChain <;> rfl)
  | _ =>
    cases inChain <;>
      simp [infer, asked, Node.fingerprint, Fingerprint.spread, isWanted, Node.kindName, Looks.nil]

private theorem inferAll_looks (context : Context) :
    ∀ (nodes : List Node) (cache : Cache), cache.Sound →
      Looks ((Node.fingerprintAll context nodes).filter isWanted) cache
        (inferAll context nodes cache).2
  | [], cache, sound => .nil
  | node :: rest, cache, sound => by
    have first := infer_looks context false node cache sound
    have others := inferAll_looks context rest _ (infer_gives context false node cache sound).sound
    rw [Node.fingerprintAll, ← List.singleton_append, List.filter_append]
    exact first.append others

private theorem inferProperties_looks (context : Context) :
    ∀ (nodes : List Node) (cache : Cache), cache.Sound →
      Looks (((Node.fingerprintFields context nodes).map Prod.snd).filter isWanted) cache
        (inferProperties context nodes cache).2
  | [], cache, sound => .nil
  | node :: rest, cache, sound => by
    cases node with
    | property loc key value shorthand =>
      have first := infer_looks context false value cache sound
      have others := inferProperties_looks context rest _
        (infer_gives context false value cache sound).sound
      rw [Node.fingerprintFields, List.map_cons, ← List.singleton_append, List.filter_append]
      exact first.append others
    | _ => exact inferProperties_looks context rest cache sound

end

/-- The look-ups of a list of requests. -/
def askedAll (requests : List (Context × Node)) : List Fingerprint :=
  (requests.map fun request => request.2.fingerprint request.1).filter isWanted

namespace Request

/-- The requests for the shapes of expressions in contexts. -/
def inferAll (requests : List (Context × Node)) : List Request :=
  requests.map fun request => .infer request.1 request.2

theorem serveAll_looks (requests : List (Context × Node)) {cache : Cache} (sound : cache.Sound) :
    Looks (askedAll requests) cache (serveAll (inferAll requests) cache).2 := by
  induction requests generalizing cache with
  | nil => exact .nil
  | cons request rest ih =>
    have first := infer_looks request.1 false request.2 cache sound
    have later := ih (infer_gives request.1 false request.2 cache sound).sound
    rw [askedAll, List.map_cons, ← List.singleton_append, List.filter_append]
    exact first.append later

end Request

end Inference

namespace Cache

/-- A sound memory keeps the shape of each fingerprint. -/
theorem Sound.entries_eq {cache : Cache} (sound : cache.Sound) :
    cache.entries = cache.keys.map fun key => (key, key.shape) := by
  rw [keys, List.map_map]
  refine (List.map_congr_left fun entry mem => ?_).trans (List.map_id _) |>.symm
  exact Prod.ext rfl (sound entry mem).symm

/-- Permuted look-ups in an empty memory leave the same table and the same counters. -/
theorem Looked.perm {wanted permuted : List Fingerprint} (perm : wanted.Perm permuted)
    {first second : Cache} (looked : Looked wanted .empty first)
    (looked' : Looked permuted .empty second) :
    first.keys.Perm second.keys ∧ first.hits = second.hits ∧ first.misses = second.misses := by
  have keys : first.keys.Perm second.keys := by
    refine (List.perm_ext_iff_of_nodup looked.nodup looked'.nodup).mpr fun key => ?_
    rw [looked.keys, looked'.keys]
    simp only [perm.mem_iff]
  have weight : first.weight = second.weight := (keys.map _).sum_nat
  have size : first.size = second.size := by
    simpa [Cache.keys, Cache.size] using keys.length_eq
  have misses := looked.misses
  have misses' := looked'.misses
  have lookups := looked.lookups
  have lookups' := looked'.lookups
  have length := perm.length_eq
  have empty : Cache.empty.size = 0 ∧ Cache.empty.weight = 0 := ⟨rfl, rfl⟩
  refine ⟨keys, ?_, ?_⟩ <;> omega

end Cache

namespace Inference

namespace Request

/-- The order of requests does not matter: permuted requests to an empty memory leave the same
entries and the same counters, and each request is answered alike, as by the recursion. -/
theorem serveAll_perm {requests permuted : List (Context × Node)} (perm : requests.Perm permuted) :
    let first := serveAll (inferAll requests) .empty
    let second := serveAll (inferAll permuted) .empty
    first.2.entries.Perm second.2.entries ∧
      first.2.hits = second.2.hits ∧ first.2.misses = second.2.misses ∧
      first.1 = requests.map (fun request => plain request.1 request.2) ∧
      second.1 = permuted.map fun request => plain request.1 request.2 := by
  intro first second
  have closed : Cache.empty.Closed := nofun
  have looked (requests : List (Context × Node)) :=
    (serveAll_looks requests Cache.sound_empty).looked closed List.nodup_nil
  have asksSame : (askedAll requests).Perm (askedAll permuted) := (perm.map _).filter _
  obtain ⟨keys, hits, misses⟩ := Cache.Looked.perm asksSame (looked requests) (looked permuted)
  have served (requests : List (Context × Node)) :=
    serveAll_sound (inferAll requests) Cache.sound_empty
  have answers (requests : List (Context × Node)) : (inferAll requests).filterMap plainAnswer =
      requests.map fun request => plain request.1 request.2 := by
    rw [inferAll, List.filterMap_map]
    exact congrFun List.filterMap_eq_map requests
  refine ⟨?_, hits, misses, (served requests).1.trans (answers _),
    (served permuted).1.trans (answers _)⟩
  rw [(served requests).2.entries_eq, (served permuted).2.entries_eq]
  exact keys.map _

/-- An element that is asked for behind its array is there already, and one that is asked for before
is there for the array. -/
theorem serveAll_perm_array :
    let one := Node.number .synthetic false "1"
    let both := Node.array .synthetic false [one, one]
    (serveAll (inferAll [([], both), ([], one)]) .empty).2.hits = 2 ∧
      (serveAll (inferAll [([], one), ([], both)]) .empty).2.hits = 2 := by
  intro one both
  have behind : (serveAll (inferAll [([], both), ([], one)]) .empty).2.hits = 2 := rfl
  have same := (serveAll_perm (.swap ([], one) ([], both) [])).2.1
  exact ⟨behind, same ▸ behind⟩

end Request

end Inference

end TypeGloss
