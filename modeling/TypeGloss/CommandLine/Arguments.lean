import TypeGloss.CommandLine.Flag
import TypeGloss.Options
import TypeGloss.Text.Integer

/-!
# Arguments

The arguments of the command line are first taken one by one for what they are, and then worked
through from left to right. What is left over is reported at the end, behind flags that are missing.

Two dashes written together with a flag stand for no value. The flag then counts as given, and its
value is missed only where it is used, unless the flag is given again.
-/

namespace TypeGloss

/-- What is given to a flag that takes a value. -/
inductive FlagValue (α : Type) where
  | value (a : α)
  /-- Two dashes, which stand for no value. -/
  | dashes
  deriving DecidableEq, Repr

/-- What the command line asks for. -/
structure Arguments where
  /-- The files to work on: a file, a directory or a pattern. -/
  input : Text
  /-- The directory for outputs. -/
  output : FlagValue Text
  /-- The plugins to read the files with; the usual ones if none are given. -/
  plugins : List Plugin
  /-- Whether outputs are indented. -/
  pretty : Bool
  /-- Whether outputs are checked. -/
  verify : Bool
  /-- Whether records are written too. -/
  emitAnalysis : Bool
  /-- How many files are worked on at a time. -/
  jobs : Nat
  /-- At least one file is worked on at a time. -/
  jobs_pos : 0 < jobs
  /-- Whether results are reported as JSON. -/
  json : Bool

/-- Why the arguments are refused. -/
inductive UsageError where
  /-- An argument could be several flags. -/
  | ambiguous (a : Ambiguity)
  /-- A flag lacks its value. -/
  | missingValue (flag : Flag)
  /-- A flag that takes no value has one. -/
  | ignoredValue (flag : Flag) (value : Text)
  /-- A value is no whole number. -/
  | notInteger (value : Text)
  /-- No plugin has the name. -/
  | notPlugin (name : Text)
  /-- Flags that must be given are missing. -/
  | required (flags : List Flag)
  /-- Some arguments are of no use. -/
  | unrecognized (arguments : List Text)
  /-- Less than one file at a time. -/
  | noJobs
  deriving DecidableEq, Repr

namespace UsageError

/-- A message about a flag. -/
def about (flag : Flag) (message : Text) : Text := "argument " ++ flag.label ++ ": " ++ message

/-- The message for arguments that are refused. -/
def message : UsageError → Text
  | .ambiguous a =>
    "ambiguous option: " ++ a.written ++ " could match " ++ Text.join ", " a.candidates
  | .missingValue flag => about flag "expected one argument"
  | .ignoredValue flag value => about flag ("ignored explicit argument " ++ Text.quoted value)
  | .notInteger value => about .jobs ("invalid int value: " ++ Text.quoted value)
  | .notPlugin name =>
    about .plugin ("invalid choice: " ++ Text.quoted name ++ " (choose from " ++
      Text.join ", " (Plugin.all.map fun plugin => Text.quoted plugin.name) ++ ")")
  | .required flags =>
    "the following arguments are required: " ++ Text.join ", " (flags.map Flag.label)
  | .unrecognized arguments => "unrecognized arguments: " ++ Text.join " " arguments
  | .noJobs => "--jobs must be at least 1"

end UsageError

/-- Why the arguments ask for no work. -/
inductive ArgumentStop where
  /-- The arguments are refused. -/
  | refused (e : UsageError)
  /-- The value of a flag is used, and two dashes stand in its place. -/
  | dashes (flag : Flag)
  /-- Only help is wanted. -/
  | help

/-- The message for a flag whose value is used and is none: how many jobs there are cannot be
compared, a plugin cannot be looked up, and there is no path. -/
def Flag.dashesMessage : Flag → Text
  | .jobs => "'<' not supported between instances of 'list' and 'int'"
  | .plugin => "unhashable type: 'list'"
  | _ => "expected str, bytes or os.PathLike object, not list"

namespace Arguments

/-- The arguments worked through so far. -/
structure Draft where
  /-- The last input given. -/
  input : Option (FlagValue Text) := none
  /-- The last output given. -/
  output : Option (FlagValue Text) := none
  /-- The plugins given, in order. -/
  plugins : List (FlagValue Plugin) := []
  /-- Whether outputs are indented. -/
  pretty : Bool := false
  /-- Whether outputs are checked. -/
  verify : Bool := true
  /-- Whether records are written too. -/
  emitAnalysis : Bool := false
  /-- How many files are worked on at a time. -/
  jobs : FlagValue Int := .value 1
  /-- Whether results are reported as JSON. -/
  json : Bool := false
  /-- The arguments of no use, the latest first. -/
  extras : List Text := []

/-- Stops with an error. -/
def refuse {α : Type} (e : UsageError) : Except ArgumentStop α := .error (.refused e)

/-- Takes a flag that has no value. -/
def takeFlag (draft : Draft) : Flag → Except ArgumentStop Draft
  | .help => .error .help
  | .pretty => .ok { draft with pretty := true }
  | .noVerify => .ok { draft with verify := false }
  | .emitAnalysis => .ok { draft with emitAnalysis := true }
  | .json => .ok { draft with json := true }
  | _ => .ok draft

/-- A value read from its text, unless the text is two dashes. -/
def given {α : Type} (read : Text → Except ArgumentStop α) (t : Text) :
    Except ArgumentStop (FlagValue α) :=
  if t = "--" then .ok .dashes else (read t).map .value

/-- The plugin with a name. -/
def readPlugin (name : Text) : Except ArgumentStop Plugin :=
  match Plugin.ofName? name with
  | some plugin => .ok plugin
  | none => refuse (.notPlugin name)

/-- The whole number that a text writes. -/
def readInteger (t : Text) : Except ArgumentStop Int :=
  match Integer.ofText? t with
  | some n => .ok n
  | none => refuse (.notInteger t)

/-- Takes a flag with its value. -/
def takeValue (draft : Draft) (t : Text) : Flag → Except ArgumentStop Draft
  | .input => do return { draft with input := some (← given .ok t) }
  | .output => do return { draft with output := some (← given .ok t) }
  | .plugin => do return { draft with plugins := draft.plugins ++ [← given readPlugin t] }
  | .jobs => do return { draft with jobs := ← given readInteger t }
  | _ => .ok draft

/-- Letters behind one that takes no value: each is a flag, up to one that takes the rest as its
value. Of the flags with a letter only the one for help takes no value, so that help is wanted
unless something is wrong. `followed` tells whether a value comes next. -/
def letters (flag : Flag) (followed : Bool) : Text → ArgumentStop
  | [] => .refused (.ignoredValue flag [])
  | c :: rest =>
    match Flag.ofSpelling? [.scalar '-', c] with
    | none => .refused (.ignoredValue flag (c :: rest))
    | some next =>
      if next.takesValue then
        if rest.isEmpty && !followed then .refused (.missingValue next) else .help
      else if rest.isEmpty then .help
      else letters next followed rest

/-- Whether a flag is written with one dash. -/
def isLetter (spelling : Text) : Bool := !spelling.startsWith "--"

/-- Works through arguments from left to right. -/
def work : List (Text × ArgumentKind) → Draft → Except ArgumentStop Draft
  | [], draft => .ok draft
  | (t, .plain) :: rest, draft => work rest { draft with extras := t :: draft.extras }
  | (t, .unknown) :: rest, draft => work rest { draft with extras := t :: draft.extras }
  | (_, .flag flag _ none) :: rest, draft =>
    if flag.takesValue then
      match rest with
      | (value, .plain) :: rest => do work rest (← takeValue draft value flag)
      | _ => refuse (.missingValue flag)
    else do work rest (← takeFlag draft flag)
  | (_, .flag flag spelling (some value)) :: rest, draft =>
    if flag.takesValue then do work rest (← takeValue draft value flag)
    else if isLetter spelling then
      let followed := match rest with
        | (_, .plain) :: _ => true
        | _ => false
      .error (letters flag followed value)
    else refuse (.ignoredValue flag value)

/-- What arguments are taken for, up to two dashes alone. -/
def kinds : List Text → Except Ambiguity (List (Text × ArgumentKind))
  | [] => .ok []
  | t :: rest =>
    if t = "--" then .ok ((t, .unknown) :: rest.map (·, .plain))
    else do
      let kind ← ArgumentKind.of t
      return (t, kind) :: (← kinds rest)

/-- The flags that must be given and are missing. -/
def missing (draft : Draft) : List Flag :=
  Flag.all.filter fun flag =>
    flag.isRequired && (if flag = .input then draft.input else draft.output).isNone

/-- The value of a flag, where it is used. -/
def used {α : Type} (flag : Flag) : FlagValue α → Except ArgumentStop α
  | .value a => .ok a
  | .dashes => .error (.dashes flag)

/-- The values of a flag that is given several times, where they are used. -/
def usedAll {α : Type} (flag : Flag) : List (FlagValue α) → Except ArgumentStop (List α)
  | [] => .ok []
  | first :: rest => do
    let a ← used flag first
    return a :: (← usedAll flag rest)

/-- The number of jobs, which must be at least one. -/
def atLeastOne (jobs : Int) : Except ArgumentStop { n : Nat // 0 < n } :=
  match Options.positive? jobs with
  | some jobs => .ok jobs
  | none => refuse .noJobs

/-- What the arguments ask for, once all of them are worked through. The directory for outputs is
used only when there are inputs. -/
def finish (draft : Draft) : Except ArgumentStop Arguments :=
  match draft.input, draft.output with
  | some input, some output =>
    if draft.extras.isEmpty then do
      let ⟨jobs, jobs_pos⟩ ← atLeastOne (← used .jobs draft.jobs)
      let plugins ← usedAll .plugin draft.plugins
      let input ← used .input input
      return {
        input, output, plugins, jobs, jobs_pos
        pretty := draft.pretty
        verify := draft.verify
        emitAnalysis := draft.emitAnalysis
        json := draft.json }
    else refuse (.unrecognized draft.extras.reverse)
  | _, _ => refuse (.required (missing draft))

/-- What the arguments of the command line ask for. -/
def ofTexts (arguments : List Text) : Except ArgumentStop Arguments :=
  match kinds arguments with
  | .error a => refuse (.ambiguous a)
  | .ok arguments => do finish (← work arguments {})

/-- The options that the arguments give. -/
def options (a : Arguments) : Options :=
  { dialect := if a.plugins.isEmpty then .standard else ⟨Dialect.firstOccurrences a.plugins⟩
    layout := if a.pretty then .pretty else .compact
    verify := a.verify
    writeRecord := a.emitAnalysis
    jobs := a.jobs
    jobs_pos := a.jobs_pos }

end Arguments

end TypeGloss
