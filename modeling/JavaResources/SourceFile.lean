import JavaResources.Artifact
import JavaResources.Layout
import JavaResources.Style.Basic

/-!
# Java source files

A source file is a notice, the declaration of its package and a class. `SourceFile.write` writes one
on a sink, in the style that belongs to it. A source file also knows its place: in the directory of
its package, under the name of its class.
-/

namespace JavaResources

/-- A class with its package and the style to render it in. -/
structure SourceFile where
  root : JavaClass
  package : String
  style : Style := {}

namespace SourceFile

/-- The notice at the top of every file. -/
def notice : String :=
  "/* AUTO-GENERATED FILE. DO NOT MODIFY.\n"
    ++ " *\n"
    ++ " * This class was automatically generated by the\n"
    ++ " * aapt tool from the resource data it found. It\n"
    ++ " * should not be modified by hand.\n"
    ++ " */\n\n"

/-- A file in the usual style, with constant fields final or not. -/
def plain (root : JavaClass) (package : String) (finalFields : Bool) : SourceFile :=
  { root, package, style := { finalFields } }

/-- The commands that write the lines above the class. -/
def preambleLayout (package : String) : List Command :=
  [.put notice, .put "package ", .put package, .putLine ";", .endLine]

/-- The commands that write the file. -/
def layout (file : SourceFile) : List Command :=
  preambleLayout file.package ++ file.root.layout file.style.finalFields

/-- Write the file on a sink. -/
def write (file : SourceFile) (sink : Sink) : Outcome Pen.Fault Pen :=
  Pen.performAll file.layout { indentation := file.style.indentation, sink }

/-- The place of the file below a base directory. -/
def path (file : SourceFile) (base : Path) : Path :=
  (base.resolve (.ofPackage file.package)).resolve (.ofString (file.root.name ++ ".java"))

/-- The text on the sink of a pen that has come to the end of its commands. -/
def finished (outcome : Outcome Pen.Fault Pen) : Except Artifact.Failure String :=
  match outcome.fault with
  | some (.sink error) => .error (.io error)
  | some .notEntered => .error (.report Pen.Fault.notEntered.message)
  | none =>
    match Text.decode? outcome.state.sink.written with
    | some text => .ok text
    | none => .error (.io .notUtf8)

/-- The text of the file. -/
def render (file : SourceFile) : Except Artifact.Failure String :=
  finished (file.write {})

/-- The file as something to be put on a disk. -/
def artifact (file : SourceFile) : Artifact :=
  ⟨file.path, file.render⟩

end SourceFile

end JavaResources
