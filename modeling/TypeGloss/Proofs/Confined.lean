import TypeGloss.Proofs.Interleaving

/-!
# Requests that stay in a scope

A request looks only at the places that its paths lead over, and changes only what they reach.
-/

namespace TypeGloss

namespace FileSystem

variable {f g : FileSystem} {sees : List Text → Prop} {place : List Text}

theorem Agree.put (agree : f.Agree sees g) (inside : place ≠ []) (entry : FileEntry) :
    (f.put place entry).Agree sees (g.put place entry) := by
  refine ⟨agree.home, fun p seen => ?_⟩
  rw [entry_put inside, entry_put inside, agree.entries p seen]

theorem Agree.clear (agree : f.Agree sees g) (inside : place ≠ []) :
    (f.clear place).Agree sees (g.clear place) := by
  refine ⟨agree.home, fun p seen => ?_⟩
  rw [entry_clear inside, entry_clear inside, agree.entries p seen]

end FileSystem

namespace Scope

open FileSystem

variable {scope : Scope} {β : Type} {f g : FileSystem} {place goal : List Text} {path : Text}

end Scope

end TypeGloss
