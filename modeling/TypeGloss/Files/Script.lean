import TypeGloss.Files.FileSystem
import TypeGloss.Files.PathFault

/-!
# Scripts of file operations

A script asks for file operations one after the other; each next step depends on the replies so far.
Scripts say what is done with files without doing it. Running a script answers its requests from a
file system.
-/

namespace TypeGloss

/-- A file operation. -/
inductive Request where
  /-- Whether a path leads to a directory. -/
  | isDirectory (path : Text)
  /-- Makes a directory. -/
  | makeDirectory (path : Text)
  /-- The content of a file. -/
  | read (path : Text)
  /-- Makes an empty file next to a target. -/
  | createTemporary (target : Path)
  /-- Gives a file new content. -/
  | write (path : Text) (content : Bytes)
  /-- Moves a file. -/
  | rename (path target : Text)
  /-- Removes a file. -/
  | remove (path : Text)

namespace Request

/-- What a request is answered with. -/
abbrev Reply : Request → Type
  | .isDirectory _ => Bool
  | .makeDirectory _ => Except FileError Unit
  | .read _ => Except FileError Bytes
  | .createTemporary _ => Except FileError Text
  | .write _ _ => Except FileError Unit
  | .rename _ _ => Except FileError Unit
  | .remove _ => Except FileError Unit

end Request

/-- The reply of a file system to a request, and the file system behind. -/
def FileSystem.answer (fs : FileSystem) : (request : Request) → request.Reply × FileSystem
  | .isDirectory path => (fs.isDirectory path, fs)
  | .makeDirectory path => fs.makeDirectory path
  | .read path => (fs.read path, fs)
  | .createTemporary target => fs.createTemporary target
  | .write path content => fs.write path content
  | .rename path target => fs.rename path target
  | .remove path => fs.remove path

/-- File operations one after the other, with a result at the end. -/
inductive Script (α : Type) where
  /-- Nothing more to do. -/
  | done (result : α)
  /-- A request, and how to go on with its reply. -/
  | ask (request : Request) (next : request.Reply → Script α)

namespace Script

variable {α β : Type}

/-- One script, and then another that depends on its result. -/
def andThen : Script α → (α → Script β) → Script β
  | .done result, next => next result
  | .ask request rest, next => .ask request fun reply => andThen (rest reply) next

instance : Monad Script where
  pure := .done
  bind := andThen

/-- The script that makes one request. -/
def request (r : Request) : Script r.Reply := .ask r .done

/-- The result of a script on a file system, and the file system behind. -/
def run : Script α → FileSystem → α × FileSystem
  | .done result, fs => (result, fs)
  | .ask request next, fs =>
    let (reply, fs) := fs.answer request
    run (next reply) fs

/-- One step of a script: its first request is answered. -/
def step : Script α → FileSystem → Script α × FileSystem
  | .done result, fs => (.done result, fs)
  | .ask request next, fs =>
    let (reply, fs) := fs.answer request
    (next reply, fs)

/-- A script can be run up to its first reply and then on from there. -/
theorem run_step (s : Script α) (fs : FileSystem) : (s.step fs).1.run (s.step fs).2 = s.run fs := by
  cases s <;> rfl

/-- Running two scripts one after the other hands the file system from one to the other. -/
theorem run_andThen (s : Script α) (next : α → Script β) (fs : FileSystem) :
    (s.andThen next).run fs = (next (s.run fs).1).run (s.run fs).2 := by
  induction s generalizing fs with
  | done result => rfl
  | ask request rest ih => exact ih (fs.answer request).1 (fs.answer request).2

/-- Makes a directory, if it is not there already. -/
def makeIfMissing (path : Path) : Script (Except FileError Unit) := do
  match ← request (.makeDirectory path.text) with
  | .ok () => return .ok ()
  | .error e =>
    if e.cause = .notFound then return .error e
    else if ← request (.isDirectory path.text) then return .ok ()
    else return .error e

/-- Makes a directory with the directories that lead to it. The names come with the last first. -/
def makeLeading (start : PathRoot) : (names : List Text) → Script (Except FileError Unit)
  | [] => makeIfMissing ⟨start, []⟩
  | name :: before => do
    let path : Path := ⟨start, (name :: before).reverse⟩
    match ← makeIfMissing path with
    | .ok () => return .ok ()
    | .error e =>
      if e.cause = .notFound then
        match ← makeLeading start before with
        | .ok () => makeIfMissing path
        | .error e => return .error e
      else return .error e

/-- Makes a directory with the directories that lead to it, as far as they are missing. -/
def makeDirectories (path : Path) : Script (Except FileError Unit) :=
  makeLeading path.start path.names.reverse

/-- Why a text is not written. -/
inductive WriteError where
  /-- No file operation takes the path. -/
  | path (fault : PathFault)
  /-- A file operation is refused. -/
  | refused (e : FileError)
  /-- The text has no encoding. -/
  | encoding (fault : Utf8.EncodeFault)

/-- Removes a temporary file and reports an error. -/
def giveUp (temporary : Text) (e : WriteError) : Script (Except WriteError Unit) := do
  let _ ← request (.remove temporary)
  return .error e

/-- Writes a text to a file at once: to a temporary file next to it, which then takes its place. If
something fails, the temporary file is removed. -/
def writeAtomic (target : Path) (text : Text) : Script (Except WriteError Unit) :=
  match PathFault.of? target.text with
  | some fault => return .error (.path fault)
  | none => do
    match ← request (.createTemporary target) with
    | .error e => return .error (.refused e)
    | .ok temporary =>
      match Utf8.encode text with
      | .error fault => giveUp temporary (.encoding fault)
      | .ok content =>
        match ← request (.write temporary content) with
        | .error e => giveUp temporary (.refused e)
        | .ok () =>
          match ← request (.rename temporary target.text) with
          | .error e => giveUp temporary (.refused e)
          | .ok () => return .ok ()

end Script

end TypeGloss
