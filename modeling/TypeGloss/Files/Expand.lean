import TypeGloss.Files.FileSystem
import TypeGloss.Files.PathFault
import TypeGloss.Files.Wildcard

/-!
# Finding inputs

The inputs are given as one file, as a directory whose JavaScript files are meant, or as a pattern.
A pattern is a path with wildcards in its names, where a double star stands for any number of
directories. Names with a dot in front are hidden from wildcards that do not start with one.
-/

namespace TypeGloss

namespace Expand

/-- The name of a pattern that stands for any number of directories. -/
def doubleStar : Text := "**"

/-- Whether a name is hidden. -/
def isHidden (name : Text) : Bool := name.head? = some (.scalar '.')

/-- Two parts of a path in one. -/
def joined (before name : Text) : Text :=
  if before.isEmpty || before.endsWith "/" then before ++ name else before ++ "/" ++ name

/-- A path without slashes at its end, unless there is nothing else. -/
def stripped (t : Text) : Text :=
  if t.all (· = .scalar '/') then t
  else (t.reverse.dropWhile (· = .scalar '/')).reverse

/-- A pattern: the directory where the search starts, and the names from the first one with
wildcards on. -/
structure Pattern where
  /-- Where the search starts. -/
  base : Text
  /-- The names to find from there. -/
  names : List Text

/-- Leaves out empty names but for the last. -/
def withoutEmpty : List Text → List Text
  | [] => []
  | [last] => [last]
  | name :: rest => if name.isEmpty then withoutEmpty rest else name :: withoutEmpty rest

/-- The pattern that a text writes. -/
def Pattern.ofText (t : Text) : Pattern :=
  let segments := Path.segments t
  let plain := segments.takeWhile (!Wildcard.isMagic ·)
  { base := if plain.isEmpty then [] else stripped (Text.join "/" plain ++ "/")
    names := withoutEmpty (segments.drop plain.length) }

/-- The place of a directory; an empty path is the working directory. -/
def place? (fs : FileSystem) (directory : Text) : Option (List Text) :=
  match fs.locate (if directory.isEmpty then "." else directory) with
  | .ok (.directory place) => some place
  | _ => none

/-- Whether an entry is a directory. -/
def isDirectoryEntry : FileEntry → Bool
  | .directory => true
  | .file _ => false

/-- What is below a directory. -/
def below (fs : FileSystem) (directory : Text) (onlyDirectories : Bool) : List (List Text) :=
  match place? fs directory with
  | none => []
  | some place =>
    ((fs.below place).filter fun (_, entry) =>
      !onlyDirectories || isDirectoryEntry entry).map Prod.fst

/-- The names directly in a directory. -/
def directly (fs : FileSystem) (directory : Text) (onlyDirectories : Bool) : List Text :=
  (below fs directory onlyDirectories).filterMap fun
    | [name] => some name
    | _ => none

/-- What a name of a pattern finds in a directory: paths from the directory on. -/
def found (fs : FileSystem) (directory name : Text) (onlyDirectories : Bool) : List Text :=
  if name = doubleStar then
    (if (place? fs directory).isSome then [[]] else []) ++
      ((below fs directory onlyDirectories).filter (·.all (!isHidden ·))).map (Text.join "/")
  else if Wildcard.isMagic name then
    (directly fs directory onlyDirectories).filter fun candidate =>
      (isHidden name || !isHidden candidate) && Wildcard.describes name candidate
  else if name.isEmpty then
    if (place? fs directory).isSome then [[]] else []
  else if fs.contains (joined directory name) then [name] else []

/-- What the names of a pattern find, from directories that were found before. All but the last name
find directories. -/
def search (fs : FileSystem) : List Text → (directories : List Text) → List Text
  | [], directories => directories
  | name :: rest, directories =>
    search fs rest <| directories.flatMap fun directory =>
      (found fs directory name !rest.isEmpty).map (joined directory)

/-- Why inputs cannot be looked for. -/
inductive Refusal where
  /-- No file operation takes the path of a directory that is to be listed. -/
  | path (fault : PathFault)
  /-- A file operation is refused. -/
  | file (e : FileError)
  deriving DecidableEq, Repr

/-- The files that a pattern finds. The search lists the directory where it starts; all others it
has found to be there. A path without wildcards is only asked about. -/
def glob (fs : FileSystem) (t : Text) : Except PathFault (List Text) :=
  if Wildcard.isMagic t then
    let pattern := Pattern.ofText t
    match PathFault.of? pattern.base with
    | some fault => .error fault
    | none => .ok ((search fs pattern.names [pattern.base]).filter fs.isFile)
  else .ok ([t].filter fs.isFile)

/-- Whether a path cannot even be asked about. Places that do not exist can be, and so can paths
that no file operation takes, which lead nowhere. -/
def unaskable? (fs : FileSystem) (path : Text) : Option FileError :=
  match PathFault.of? path, fs.locate path with
  | some _, _ => none
  | none, .error .notFound | none, .error .notDirectory | none, .ok _ => none
  | none, .error cause => some { cause, path }

/-- The inputs that a text stands for, in order. -/
def inputs (fs : FileSystem) (t : Text) : Except Refusal (List Text) :=
  let path := Path.ofText t
  match unaskable? fs path.text with
  | some e => .error (.file e)
  | none =>
    if fs.isDirectory path.text then
      let names := (directly fs path.text false).filter (Wildcard.describes "*.js")
      .ok (Text.sort ((names.map fun name => (path.child name).text).filter fs.isFile))
    else if fs.isFile path.text then .ok [path.text]
    else
      match glob fs t with
      | .ok found => .ok (Text.sort found)
      | .error fault => .error (.path fault)

end Expand

end TypeGloss
