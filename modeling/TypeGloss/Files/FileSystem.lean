import TypeGloss.Files.FileError
import TypeGloss.Files.Path
import TypeGloss.Table
import TypeGloss.Text.Utf8

/-!
# File systems

A file system has directories and files at places. A place is the list of names that lead to it from
the root, which is always a directory. Written paths start from the root or from the working
directory and are followed name by name; every name but the last must lead to a directory.
-/

namespace TypeGloss

/-- What is at a place. -/
inductive FileEntry where
  | directory
  | file (content : Bytes)
  deriving DecidableEq, Repr

/-- Directories and files, and where the working directory is. -/
structure FileSystem where
  /-- The place of the working directory. -/
  home : List Text
  /-- What is at each place but the root. -/
  entries : Table (List Text) FileEntry

namespace FileSystem

/-- The most bytes that a name may have. -/
def maxName : Nat := 255

/-- The number of bytes from which on a path is too long. -/
def pathLimit : Nat := 4096

/-- What is at a place. -/
def entry? (fs : FileSystem) (place : List Text) : Option FileEntry :=
  if place.isEmpty then some .directory else fs.entries.get? place

/-- The file system with something at a place. -/
def put (fs : FileSystem) (place : List Text) (entry : FileEntry) : FileSystem :=
  { fs with entries := fs.entries.insert place entry }

/-- The file system with nothing at a place. -/
def clear (fs : FileSystem) (place : List Text) : FileSystem :=
  { fs with entries := fs.entries.erase place }

/-- Where a path leads. -/
inductive Found where
  | directory (place : List Text)
  | file (place : List Text) (content : Bytes)
  /-- Nothing is there, but what would be around it is. -/
  | vacant (place : List Text)
  deriving DecidableEq, Repr

/-- Follows names from a directory. -/
def follow (fs : FileSystem) : List Text → (here : List Text) → Except FileError.Cause Found
  | [], here => .ok (.directory here)
  | name :: rest, here =>
    if Path.isIdle name then follow fs rest here
    else if name = ".." then follow fs rest here.dropLast
    else if maxName < Utf8.byteLength name then .error .nameTooLong
    else
      match fs.entry? (here ++ [name]), rest with
      | some .directory, rest => follow fs rest (here ++ [name])
      | some (.file content), [] => .ok (.file (here ++ [name]) content)
      | some (.file _), _ => .error .notDirectory
      | none, [] => .ok (.vacant (here ++ [name]))
      | none, _ => .error .notFound

/-- Where a written path leads. -/
def locate (fs : FileSystem) (path : Text) : Except FileError.Cause Found :=
  if path.isEmpty then .error .notFound
  else if pathLimit ≤ Utf8.byteLength path then .error .nameTooLong
  else follow fs (Path.segments path) (if Path.startOf path = .here then fs.home else [])

/-- Whether a written path leads to a directory. -/
def isDirectory (fs : FileSystem) (path : Text) : Bool :=
  match fs.locate path with
  | .ok (.directory _) => true
  | _ => false

/-- Whether a written path leads to a file. -/
def isFile (fs : FileSystem) (path : Text) : Bool :=
  match fs.locate path with
  | .ok (.file _ _) => true
  | _ => false

/-- Whether a written path leads to a file or a directory. -/
def contains (fs : FileSystem) (path : Text) : Bool := fs.isDirectory path || fs.isFile path

/-- What is below a place: the names that lead there, and what it is. -/
def below (fs : FileSystem) (place : List Text) : List (List Text × FileEntry) :=
  fs.entries.filterMap fun (spot, entry) =>
    match spot.drop place.length with
    | [] => none
    | names => if place.isPrefixOf spot then some (names, entry) else none

/-- The content of a file. -/
def read (fs : FileSystem) (path : Text) : Except FileError Bytes :=
  match fs.locate path with
  | .ok (.file _ content) => .ok content
  | .ok (.directory _) => .error { cause := .isDirectory, path }
  | .ok (.vacant _) => .error { cause := .notFound, path }
  | .error cause => .error { cause, path }

/-- Makes a directory where nothing is. -/
def makeDirectory (fs : FileSystem) (path : Text) : Except FileError Unit × FileSystem :=
  match fs.locate path with
  | .ok (.vacant place) => (.ok (), fs.put place .directory)
  | .ok _ => (.error { cause := .alreadyExists, path }, fs)
  | .error cause => (.error { cause, path }, fs)

/-- The path of a place from the root. -/
def placeText (place : List Text) : Text := "/" ++ Text.join "/" place

/-- The name of the temporary file for a target at a try. -/
def temporaryName (target : Text) (turn : Nat) : Text :=
  let mark : Text := if turn = 0 then "XXXXXXXX" else Text.hexadecimal 8 turn
  "." ++ target ++ "." ++ mark ++ ".tmp"

/-- The first name for a temporary file that is free in a directory, after at most `tries` others. -/
def freeName (fs : FileSystem) (directory : List Text) (target : Text) :
    (tries turn : Nat) → Text
  | 0, turn => temporaryName target turn
  | tries + 1, turn =>
    let name := temporaryName target turn
    if (fs.entry? (directory ++ [name])).isSome then freeName fs directory target tries (turn + 1)
    else name

/-- Makes an empty file next to where a target is to be, and gives its path. The directory of the
target is taken from the root. -/
def createTemporary (fs : FileSystem) (target : Path) : Except FileError Text × FileSystem :=
  let directory := target.parent.fromRoot fs.home
  let name := freeName fs directory target.name fs.entries.length 0
  let path := placeText (directory ++ [name])
  match fs.locate path with
  | .ok (.vacant place) => (.ok path, fs.put place (.file []))
  | .ok _ => (.error { cause := .alreadyExists, path }, fs)
  | .error cause => (.error { cause, path }, fs)

/-- Gives a file new content. -/
def write (fs : FileSystem) (path : Text) (content : Bytes) : Except FileError Unit × FileSystem :=
  match fs.locate path with
  | .ok (.file place _) => (.ok (), fs.put place (.file content))
  | .ok (.directory _) => (.error { cause := .isDirectory, path }, fs)
  | .ok (.vacant _) => (.error { cause := .notFound, path }, fs)
  | .error cause => (.error { cause, path }, fs)

/-- Moves a file to a target, over a file that is there. -/
def rename (fs : FileSystem) (path target : Text) : Except FileError Unit × FileSystem :=
  let refuse (cause : FileError.Cause) : Except FileError Unit × FileSystem :=
    (.error { cause, path, target := some target }, fs)
  match fs.locate path, fs.locate target with
  | .ok (.file place content), .ok (.file goal _)
  | .ok (.file place content), .ok (.vacant goal) =>
    (.ok (), (fs.clear place).put goal (.file content))
  | .ok (.file _ _), .ok (.directory _) => refuse .isDirectory
  | .ok (.file _ _), .error cause => refuse cause
  | .error cause, _ => refuse cause
  | .ok (.directory _), _ => refuse .isDirectory
  | .ok (.vacant _), _ => refuse .notFound

/-- Removes a file. -/
def remove (fs : FileSystem) (path : Text) : Except FileError Unit × FileSystem :=
  match fs.locate path with
  | .ok (.file place _) => (.ok (), fs.clear place)
  | .ok (.directory _) => (.error { cause := .isDirectory, path }, fs)
  | .ok (.vacant _) => (.error { cause := .notFound, path }, fs)
  | .error cause => (.error { cause, path }, fs)

/-- The places on the way to a place, itself included and the root left out. -/
def leadingTo (place : List Text) : List (List Text) :=
  (List.range place.length).map fun n => place.take (n + 1)

/-- A file system with an empty working directory. -/
def withHome (home : List Text) : FileSystem :=
  { home, entries := (leadingTo home).map fun place => (place, .directory) }

/-- Puts directories at all places that lead to a place below the working directory. -/
def withDirectories (fs : FileSystem) (names : List Text) : FileSystem :=
  (leadingTo names).foldl (fun fs before =>
    match fs.entry? (fs.home ++ before) with
    | some _ => fs
    | none => fs.put (fs.home ++ before) .directory) fs

/-- Puts a file below the working directory, with the directories that lead to it. -/
def withFile (fs : FileSystem) (names : List Text) (content : Bytes) : FileSystem :=
  (fs.withDirectories names.dropLast).put (fs.home ++ names) (.file content)

/-- The files below the working directory, by the names that lead to them. -/
def filesAtHome (fs : FileSystem) : List (List Text × Bytes) :=
  (fs.below fs.home).filterMap fun
    | (names, .file content) => some (names, content)
    | _ => none

/-- The files below the working directory that are new or have new content since an earlier state. -/
def changedSince (fs before : FileSystem) : List (List Text × Bytes) :=
  fs.filesAtHome.filter fun (names, content) =>
    before.entries.get? (before.home ++ names) ≠ some (.file content)

end FileSystem

end TypeGloss
