import JavaResources.Disk.Basic
import JavaResources.Style.Schema
import JavaResources.Toml.Document

/-!
# A style from text or from a file

A style is read from the text of a document, which may come from a file. What is wrong with it is
reported together with the name of the file. This works with any reader of documents, and at the end
of this module with the one of this library.
-/

namespace JavaResources.Style

/-- Why text gives no style: it is no document, or the document does not fit. -/
inductive Problem where
  | notDocument (flaw : Toml.Flaw)
  | misfit (found : Misfit)

/-- The style that text gives. -/
def readText (read : Toml.Reader) (text : String) : Except Problem Style :=
  match read text with
  | .error flaw => .error (.notDocument flaw)
  | .ok document =>
    match ofDocument document with
    | .ok style => .ok style
    | .error found => .error (.misfit found)

/-- The name of the file that text is said to come from when it comes from none. -/
def defaultFileName : String := "classgen.toml"

/-- Why there is no style: the file cannot be read, or its text is not right. -/
inductive LoadError where
  | unreadable (path : String) (cause : IoError)
  | invalid (file : String) (problem : Problem)

namespace LoadError

/-- The explanation of an error. -/
def message : LoadError → String
  | .unreadable path _ => "failed to read '" ++ path ++ "'"
  | .invalid _ _ => "failed to parse generator options"

/-- The code by which an error can be looked up. -/
def code : LoadError → String
  | .unreadable _ _ => "classgen::io_error"
  | .invalid _ _ => "classgen::parse_error"

/-- What one can do about an error, if anything can be said in general. -/
def help? : LoadError → Option String
  | .unreadable _ _ => none
  | .invalid _ _ =>
    some ("supported keys are 'use_final' (bool) and 'indent' (\"tab\" or "
      ++ "\x7b spaces = N \x7d)")

/-- The label of the place in the text to which an error points, if it points to one. -/
def label? : LoadError → Option String
  | .unreadable _ _ => none
  | .invalid _ (.notDocument .longKey) => none
  | .invalid _ _ => some "parse error here"

end LoadError

/-- The style in the text of a file of a given name. -/
def readFileText (read : Toml.Reader) (file text : String) : Except LoadError Style :=
  match readText read text with
  | .ok style => .ok style
  | .error problem => .error (.invalid file problem)

/-- The style in a text that comes from no file. -/
def readUnnamedText (read : Toml.Reader) (text : String) : Except LoadError Style :=
  readFileText read defaultFileName text

/-- The style in a file on a disk. -/
def readFile (read : Toml.Reader) (disk : Disk) (path : Path) : Except LoadError Style :=
  match disk.readText path with
  | .ok text => readFileText read path.text text
  | .error cause => .error (.unreadable path.text cause)

/-! ## With the reader of this library -/

/-- The style in the text of a file of a given name. -/
def ofFileText : String → String → Except LoadError Style :=
  readFileText Toml.Document.ofText

/-- The style in a text that comes from no file. -/
def ofUnnamedText : String → Except LoadError Style :=
  readUnnamedText Toml.Document.ofText

/-- The style in a file on a disk. -/
def ofFile : Disk → Path → Except LoadError Style :=
  readFile Toml.Document.ofText

end JavaResources.Style
