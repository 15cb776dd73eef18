import TypeGloss.Print.Layout
import TypeGloss.Source.Dialect
import TypeGloss.Text.Numeral

/-!
# Options

How programs are read, printed and checked, and how many at once. At least one program is worked on
at a time.
-/

namespace TypeGloss

/-- How programs are worked on. -/
structure Options where
  /-- The dialect that sources are read in. -/
  dialect : Dialect := .standard
  /-- The layout of the output. -/
  layout : Layout := .compact
  /-- Whether the output is read back and checked. -/
  verify : Bool := true
  /-- Whether the record of each program is written too. -/
  writeRecord : Bool := false
  /-- How many programs are worked on at a time. -/
  jobs : Nat := 1
  /-- At least one program is worked on at a time. -/
  jobs_pos : 0 < jobs := by decide

/-- Why there are no such options. -/
inductive OptionError where
  /-- No plugins have these names. -/
  | unknownPlugins (names : List Text)
  /-- Fewer than one program at a time. -/
  | jobs (count : Int)
  deriving DecidableEq, Repr

namespace OptionError

/-- The message for options that do not exist. -/
def message : OptionError → Text
  | .unknownPlugins names => "Unknown parser plugin(s): " ++ Text.join ", " names
  | .jobs count => "jobs must be at least 1, got " ++ Text.decimalInt count

end OptionError

namespace Options

/-- A number of programs to work on at a time, if it is at least one. -/
def positive? (count : Int) : Option { n : Nat // 0 < n } :=
  if h : 0 < count then some ⟨count.toNat, Int.lt_toNat.mpr h⟩ else none

/-- The options with the number of programs to work on at a time. -/
def withJobs (options : Options) (count : Int) : Except OptionError Options :=
  match positive? count with
  | some ⟨jobs, jobs_pos⟩ => .ok { options with jobs, jobs_pos }
  | none => .error (.jobs count)

/-- The options with the named plugins. -/
def withPlugins (options : Options) (names : List Text) : Except OptionError Options :=
  match Dialect.ofNames names with
  | .ok dialect => .ok { options with dialect }
  | .error unknown => .error (.unknownPlugins unknown)

end Options

end TypeGloss
