import JavaResources.IoError
import JavaResources.Path
import JavaResources.Text.Utf8

/-!
# A disk

A disk holds directories and files. Each has a location, the names that lead to it from the root,
and the root itself is always a directory. Paths lead to locations: a single dot is the directory
one is in, two dots the one above, and every component but the last has to be a directory.
`Disk.makeDirectory`, `Disk.writeFile` and `Disk.readFile` are the operations on one path, with the
error of each way to fail.
-/

namespace JavaResources

/-- A directory, or a file with its content. -/
inductive Disk.Entry where
  | directory
  | file (content : Array UInt8)
  deriving DecidableEq

/-- The names that lead to a place from the root. -/
abbrev Disk.Location := List (List Char)

/-- The directories and files on a disk, apart from the root. -/
structure Disk where
  entries : List (Disk.Location × Disk.Entry) := []

namespace Disk

/-- What is at a location. -/
def entry? (disk : Disk) (location : Location) : Option Entry :=
  if location = [] then some .directory else disk.entries.lookup location

/-- Put something at a location, in place of what was there. -/
def put (disk : Disk) (location : Location) (entry : Entry) : Disk :=
  ⟨(disk.entries.filter (·.1 ≠ location)) ++ [(location, entry)]⟩

/-! ## Following paths -/

/-- The most bytes that a path may have. -/
def maxPathBytes : Nat := 4095

/-- The most bytes that a name may have. -/
def maxNameBytes : Nat := 255

/-- Where a path leads: through which components, to which last one, and whether a slash follows
that. -/
structure Route where
  above : List (List Char)
  last : Option (List Char)
  slash : Bool

/-- The components of a path, apart from repeated slashes. -/
def components (path : Path) : List (List Char) :=
  (Text.pieces '/' path.chars).filter (· ≠ [])

/-- The route of a path. The empty path leads nowhere, and some paths cannot be put to a disk at
all. -/
def route (path : Path) : Except IoError Route :=
  if '\x00' ∈ path.chars then .error .nulInPath
  else if path.chars = [] then .error .notFound
  else if maxPathBytes < (Text.encode path.chars).length then .error .nameTooLong
  else
    let names := components path
    .ok ⟨names.dropLast, names.getLast?, path.chars.getLast? == some '/'⟩

/-- Fail unless there is a directory at a location. -/
def requireDirectory (disk : Disk) (location : Location) : Except IoError Unit :=
  match disk.entry? location with
  | none => .error .notFound
  | some (.file _) => .error .notADirectory
  | some .directory => .ok ()

/-- One component further from a location, which has to be a directory. -/
def step (disk : Disk) (location : Location) (name : List Char) : Except IoError Location := do
  disk.requireDirectory location
  if name = ['.'] then .ok location
  else if name = ['.', '.'] then .ok location.dropLast
  else if maxNameBytes < (Text.encode name).length then .error .nameTooLong
  else .ok (location ++ [name])

/-- The location that components lead to from the root. -/
def follow (disk : Disk) (names : List (List Char)) : Except IoError Location :=
  names.foldlM disk.step []

/-- A component that names no entry of a directory. -/
def isDots (name : List Char) : Bool :=
  name == ['.'] || name == ['.', '.']

/-- The location that a path leads to, and what is there. A slash may only follow a directory. -/
def find (disk : Disk) (path : Path) : Except IoError (Location × Entry) := do
  let way ← route path
  let location ← disk.follow (way.above ++ way.last.toList)
  match disk.entry? location with
  | none => .error .notFound
  | some .directory => .ok (location, .directory)
  | some (.file content) =>
    if way.slash then .error .notADirectory else .ok (location, .file content)

/-- There is a directory at the end of a path. -/
def isDirectory (disk : Disk) (path : Path) : Bool :=
  match disk.find path with
  | .ok (_, .directory) => true
  | _ => false

/-! ## Operations -/

/-- Make a directory. The one it lies in has to exist. -/
def makeDirectory (disk : Disk) (path : Path) : Except IoError Disk := do
  let way ← route path
  let above ← disk.follow way.above
  match way.last with
  | none => .error .alreadyExists
  | some name =>
    let location ← disk.step above name
    if isDots name || (disk.entry? location).isSome then .error .alreadyExists
    else .ok (disk.put location .directory)

/-- Write a file, in place of one that was there. The directory it lies in has to exist. A path with
a slash at its end names a directory, whatever its last component is. -/
def writeFile (disk : Disk) (path : Path) (content : Array UInt8) : Except IoError Disk := do
  let way ← route path
  let above ← disk.follow way.above
  match way.last with
  | none => .error .isADirectory
  | some name =>
    disk.requireDirectory above
    if way.slash then .error .isADirectory
    else
      let location ← disk.step above name
      if isDots name || disk.entry? location = some .directory then .error .isADirectory
      else .ok (disk.put location (.file content))

/-- The content of a file. -/
def readFile (disk : Disk) (path : Path) : Except IoError (Array UInt8) := do
  match ← disk.find path with
  | (_, .directory) => .error .isADirectory
  | (_, .file content) => .ok content

/-- The text of a file. -/
def readText (disk : Disk) (path : Path) : Except IoError String := do
  match Text.decode? (← disk.readFile path) with
  | some text => .ok text
  | none => .error .notUtf8

end Disk

end JavaResources
