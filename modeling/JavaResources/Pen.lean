import JavaResources.Indentation
import JavaResources.Sink
import JavaResources.Text.Lines
import JavaResources.Text.Utf8

/-!
# Writing indented lines

A pen writes text on a sink and indents every line by the level in force when the line gets its
first character. The indentation is owed from the start of a line and paid just before that
character, so it never stands on an empty line and never in the middle of one. Every operation gives
an `Outcome`: when the sink refuses, the pen keeps the state that it had reached, and a later
operation goes on from there.
-/

namespace JavaResources

/-- What stops a pen: an error of its sink, or leaving a level that was never entered. -/
inductive Pen.Fault where
  | sink (error : IoError)
  | notEntered
  deriving DecidableEq, Repr

/-- The explanation of a fault. -/
def Pen.Fault.message : Pen.Fault → String
  | .sink error => error.message
  | .notEntered => "undent called at indentation level zero"

/-- A pen: how it indents, how deep it is, whether the current line still needs its indentation, and
where its text goes. -/
structure Pen where
  indentation : Indentation := .java
  level : Nat := 0
  owesIndent : Bool := true
  sink : Sink := {}

namespace Pen

/-- Write text to the sink as it stands. -/
def write : Pen → List Char → Outcome Fault Pen
  | ⟨indentation, level, owesIndent, sink⟩, text =>
    (sink.writeAll (Text.encode text)).lift (⟨indentation, level, owesIndent, ·⟩) Fault.sink

/-- Write a number of indentation units, each by a write of its own. -/
def writeUnits : Nat → Pen → Outcome Fault Pen
  | 0, pen => .done pen
  | count + 1, pen => (pen.write pen.indentation.unit.toList).andThen (writeUnits count)

/-- Write the indentation of the current line if it is still owed. It stays owed until the whole of
it is written. -/
def payIndent (pen : Pen) : Outcome Fault Pen :=
  if pen.owesIndent then
    (pen.writeUnits pen.level).andThen fun paid => .done { paid with owesIndent := false }
  else .done pen

/-- Write a piece of a line. An empty piece does not start the line. -/
def putPiece (pen : Pen) (piece : List Char) : Outcome Fault Pen :=
  if piece = [] then .done pen else pen.payIndent.andThen (·.write piece)

/-- End the line. The next line owes its indentation once the line feed is written. -/
def endLine (pen : Pen) : Outcome Fault Pen :=
  (pen.write ['\n']).andThen fun ended => .done { ended with owesIndent := true }

/-- Write pieces of lines, each but the last followed by the end of its line. -/
def putPieces : List (List Char) → Pen → Outcome Fault Pen
  | [], pen => .done pen
  | [piece], pen => pen.putPiece piece
  | piece :: others, pen => ((pen.putPiece piece).andThen endLine).andThen (putPieces others)

/-- Write text, which may hold line feeds. -/
def put (pen : Pen) (text : String) : Outcome Fault Pen :=
  pen.putPieces (Text.lines text.toList)

/-- Write text and end the line. -/
def putLine (pen : Pen) (text : String) : Outcome Fault Pen :=
  (pen.put text).andThen endLine

/-- Enter one more level of indentation. -/
def enter (pen : Pen) : Pen :=
  { pen with level := pen.level + 1 }

/-- Leave a level of indentation, which has to have been entered. -/
def leave (pen : Pen) : Outcome Fault Pen :=
  match pen.level with
  | 0 => .stopped pen .notEntered
  | level + 1 => .done { pen with level }

end Pen

end JavaResources
