import TypeGloss.CommandLine.Run

/-!
# The program

The outer layer of the command line: it looks at the directories that the input names, answers the
requests of the script from the files of the machine, and prints what is left to say.
-/

namespace TypeGloss

namespace Terminal

/-- The cause of an error of the machine. -/
def causeOf : IO.Error → FileError.Cause
  | .noFileOrDirectory _ code words | .alreadyExists _ code words | .inappropriateType _ code words
  | .permissionDenied _ code words | .invalidArgument _ code words =>
    .ofNumber code.toNat (Text.ofString words)
  | .otherError code words => .ofNumber code.toNat (Text.ofString words)
  | e => .other 0 (Text.ofString (toString e))

/-- The result of an action, or its error for a path. -/
def attempt {α : Type} (path : Text) (target : Option Text) (action : IO α) :
    IO (Except FileError α) := do
  match ← action.toBaseIO with
  | .ok result => return .ok result
  | .error e => return .error { cause := causeOf e, path, target }

/-- Whether a path leads to a directory. -/
def isDirectory (path : Text) : IO Bool := do
  match ← (IO.FS.realPath path.toString).toBaseIO with
  | .ok found => found.isDir
  | .error _ => return false

/-- Whether a path leads to anything. -/
def isThere (path : Text) : IO Bool := do
  match ← (IO.FS.realPath path.toString).toBaseIO with
  | .ok _ => return true
  | .error _ => return false

/-- The path of a new file next to a target. -/
def newName (home : List Text) (target : Path) : IO Text := do
  let mark ← IO.rand 0 0xFFFFFFFF
  let name : Text := "." ++ target.name ++ "." ++ Text.hexadecimal 8 mark ++ ".tmp"
  return FileSystem.placeText (target.parent.fromRoot home ++ [name])

/-- The reply of the machine to a request. -/
def reply (home : List Text) : (request : Request) → IO request.Reply
  | .isDirectory path => isDirectory path
  | .makeDirectory path => attempt path none (IO.FS.createDir path.toString)
  | .read path => attempt path none do
    return (← IO.FS.readBinFile path.toString).toList
  | .createTemporary target => do
    let path ← newName home target
    attempt path none do
      let _ ← IO.FS.Handle.mk path.toString .writeNew
      return path
  | .write path content =>
    attempt path none (IO.FS.writeBinFile path.toString ⟨content.toArray⟩)
  | .rename path target =>
    attempt path (some target) (IO.FS.rename path.toString target.toString)
  | .remove path => attempt path none (IO.FS.removeFile path.toString)

/-- The result of a script on the files of the machine. -/
def perform {α : Type} (home : List Text) : Script α → IO α
  | .done result => return result
  | .ask request next => do
    let answer ← reply home request
    perform home (next answer)

/-- Adds what is below a directory of the machine, as far down as the levels go. -/
def survey : (levels : Nat) → (place : List Text) → FileSystem → IO FileSystem
  | 0, _, fs => return fs
  | levels + 1, place, fs => do
    let directory ← IO.FS.realPath (FileSystem.placeText place).toString
    let mut fs := fs
    for entry in ← directory.readDir do
      let spot := place ++ [Text.ofString entry.fileName]
      if ← entry.path.isDir then
        fs ← survey levels spot (fs.put spot .directory)
      else
        fs := fs.put spot (.file [])
    return fs

/-- The number of levels below which no directory is looked at. -/
def maxLevels : Nat := 64

/-- The files of the machine as far as an input can name them, without their content. -/
def filesFor (home : List Text) (input : Text) : IO FileSystem := do
  let whole := Path.ofText input
  let base := Path.ofText (Expand.Pattern.ofText input).base
  let mut fs := FileSystem.withHome home
  for path in [whole, base] do
    let place := path.fromRoot home
    if ← isDirectory path.text then
      for spot in FileSystem.leadingTo place do
        fs := fs.put spot .directory
      fs ← survey (if path = whole then 1 else maxLevels) place fs
    else if ← isThere path.text then
      for spot in FileSystem.leadingTo place.dropLast do
        fs := fs.put spot .directory
      fs := fs.put place (.file [])
  return fs

/-- The exit code of the program, after it has printed what there is to say. -/
def run (arguments : List Text) : IO UInt32 := do
  match Arguments.ofTexts arguments with
  | .error .help =>
    IO.println CommandLine.usage.toString
    return 0
  | .error (.refused e) =>
    IO.eprintln CommandLine.usage.toString
    IO.eprintln (CommandLine.usageMessage e).toString
    return 2
  | .error (.dashes flag) =>
    IO.eprintln flag.dashesMessage.toString
    return 1
  | .ok a =>
    let home := (Path.ofText (Text.ofString (toString (← IO.currentDir)))).names
    match Expand.inputs (← filesFor home a.input) a.input with
    | .error (.file e) =>
      IO.eprintln e.message.toString
      return 1
    | .error (.path fault) =>
      IO.eprintln fault.message.toString
      return 1
    | .ok inputs =>
      match ← perform home (CommandLine.workOn a inputs) with
      | .ok outcome =>
        IO.print outcome.output.toString
        IO.eprint outcome.messages.toString
        return outcome.exitCode.toUInt32
      | .error (.interrupted stop) =>
        IO.eprintln stop.message.toString
        return 1
      | .error (.arguments (.dashes flag)) =>
        IO.eprintln flag.dashesMessage.toString
        return 1
      | .error _ => return 1

end Terminal

end TypeGloss

/-- The program. -/
def main (arguments : List String) : IO UInt32 :=
  TypeGloss.Terminal.run (arguments.map TypeGloss.Text.ofString)
