import TypeGloss.Inference.Fingerprint

/-!
# The memory of inference

Shapes that were found are kept under the fingerprints of their expressions. The memory counts how
often a wanted fingerprint was there and how often it was not.
-/

namespace TypeGloss

/-- The shapes found so far, the latest first, and the counters. -/
structure Cache where
  /-- The shapes under their fingerprints. -/
  entries : List (Fingerprint × Shape) := []
  /-- How often a wanted fingerprint was there. -/
  hits : Nat := 0
  /-- How often a wanted fingerprint was not there. -/
  misses : Nat := 0

namespace Cache

/-- Nothing found and nothing counted. -/
def empty : Cache := {}

/-- The shape under a fingerprint. -/
def find? (cache : Cache) (wanted : Fingerprint) : Option Shape :=
  (cache.entries.find? fun entry => entry.1 = wanted).map Prod.snd

/-- Whether a fingerprint has a shape. -/
def contains (cache : Cache) (wanted : Fingerprint) : Bool := (cache.find? wanted).isSome

/-- The memory after a fingerprint was there. -/
def hit (cache : Cache) : Cache := { cache with hits := cache.hits + 1 }

/-- The memory after a fingerprint was not there. -/
def miss (cache : Cache) : Cache := { cache with misses := cache.misses + 1 }

/-- The memory with a shape under a new fingerprint. -/
def insert (cache : Cache) (fingerprint : Fingerprint) (shape : Shape) : Cache :=
  { cache with entries := (fingerprint, shape) :: cache.entries }

/-- The number of fingerprints with a shape. -/
def size (cache : Cache) : Nat := cache.entries.length

/-- The shape under a fingerprint; if there is none, it is worked out and kept. -/
def remember (cache : Cache) (fingerprint : Fingerprint) (work : Cache → Shape × Cache) :
    Shape × Cache :=
  match cache.find? fingerprint with
  | some shape => (shape, cache.hit)
  | none =>
    let (shape, cache) := work cache.miss
    (shape, cache.insert fingerprint shape)

end Cache

end TypeGloss
