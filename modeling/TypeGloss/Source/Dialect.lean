import TypeGloss.Text.CodePoint

/-!
# Dialects

A dialect is a set of plugins that the reader of programs was given. Two of them allow type syntax.
-/

namespace TypeGloss

/-- The plugins that exist. -/
inductive Plugin where
  | jsx
  | flow
  | typescript
  deriving DecidableEq, Repr

namespace Plugin

/-- All plugins, in the order in which choices are listed. -/
def all : List Plugin := [.jsx, .flow, .typescript]

/-- The name of a plugin. -/
def name : Plugin → Text
  | .jsx => "jsx"
  | .flow => "flow"
  | .typescript => "typescript"

/-- The plugin with a name. -/
def ofName? (name : Text) : Option Plugin := all.find? (·.name = name)

end Plugin

/-- The plugins in use, each once, in the order in which they were first given. -/
structure Dialect where
  /-- The plugins. -/
  plugins : List Plugin
  deriving DecidableEq, Repr

namespace Dialect

/-- The plugins in use when none are given. -/
def standard : Dialect := ⟨[.jsx, .flow]⟩

/-- The dialect in which printed programs are read back. -/
def typescript : Dialect := ⟨[.typescript]⟩

/-- Whether type syntax is allowed. -/
def allowsTypes (d : Dialect) : Bool := d.plugins.contains .flow || d.plugins.contains .typescript

/-- The list with every member at its first place only. -/
def firstOccurrences {α : Type} [DecidableEq α] (xs : List α) : List α :=
  xs.foldl (fun seen x => if seen.contains x then seen else seen ++ [x]) []

/-- The dialect with the named plugins, or the names that no plugin has, each once and sorted. -/
def ofNames (names : List Text) : Except (List Text) Dialect :=
  let unknown := names.filter fun name => (Plugin.ofName? name).isNone
  if unknown.isEmpty then .ok ⟨firstOccurrences (names.filterMap Plugin.ofName?)⟩
  else .error (Text.sort (firstOccurrences unknown))

end Dialect

end TypeGloss
