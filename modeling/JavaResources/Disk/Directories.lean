import JavaResources.Disk.Basic
import JavaResources.Outcome

/-!
# Directories with those above them

`Disk.makeDirectories` makes a directory and, before it, those above it that are missing. What is
there already is left alone. Directories that were made before a failure stay.
-/

namespace JavaResources.Disk

/-- Make a directory unless there is one. -/
def ensureDirectory (disk : Disk) (path : Path) : Outcome IoError Disk :=
  match disk.makeDirectory path with
  | .ok made => .done made
  | .error error => if disk.isDirectory path then .done disk else .stopped disk error

/-- Make a directory and the missing ones above it. Nothing is to be made at an empty path or at the
root. -/
def makeDirectories (disk : Disk) (path : Path) : Outcome IoError Disk :=
  match hparent : path.parent? with
  | none => .done disk
  | some parent =>
    match disk.makeDirectory path with
    | .ok made => .done made
    | .error error =>
      if error.kind = .notFound then
        have := Path.length_lt_of_parent? hparent
        (disk.makeDirectories parent).andThen (·.ensureDirectory path)
      else if disk.isDirectory path then .done disk
      else .stopped disk error
termination_by path.chars.length

end JavaResources.Disk
