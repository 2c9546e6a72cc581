import JavaResources.Disk.Directories
import JavaResources.Event

/-!
# Files that are generated

A generated file knows its place below a base directory and can be rendered. `Artifact.write`
renders it first, so that nothing happens on the disk if that fails, makes the directory it belongs
to, and then writes it in place of what was there.
-/

namespace JavaResources

/-- Why a file was not written: an error of the sink or the disk, or any other reason, as it was
reported. -/
inductive Artifact.Failure where
  | io (error : IoError)
  | report (message : String)
  deriving DecidableEq

/-- A file to be generated: its place below a base directory, and its text. -/
structure Artifact where
  path : Path → Path
  render : Except Artifact.Failure String

namespace Artifact

/-- What writing a file did: the disk it left, the path that was written, and the events to log. -/
structure Delivery where
  disk : Disk
  result : Except Failure Path
  events : List Event

/-- Write text to a path, making the directory it lies in. -/
def deliver (disk : Disk) (path : Path) (text : String) : Delivery :=
  let prepared : Outcome IoError Disk :=
    match path.parent? with
    | none => .done disk
    | some parent => disk.makeDirectories parent
  match prepared.fault with
  | some error => ⟨prepared.state, .error (.io error), []⟩
  | none =>
    let content := (Text.encode text.toList).toArray
    match prepared.state.writeFile path content with
    | .error error => ⟨prepared.state, .error (.io error), []⟩
    | .ok written => ⟨written, .ok path, [.wrote content.size path]⟩

/-- Render a file and write it below a base directory. -/
def write (file : Artifact) (base : Path) (disk : Disk) : Delivery :=
  match file.render with
  | .error failure => ⟨disk, .error failure, []⟩
  | .ok text => deliver disk (file.path base) text

end Artifact

end JavaResources
