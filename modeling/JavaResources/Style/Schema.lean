import JavaResources.Style.Basic
import JavaResources.Text.Decimal
import JavaResources.Text.Quoted
import JavaResources.Number.Shortest
import JavaResources.Toml.Reader

/-!
# The style in a document

A document that gives a style has at most the keys `use_final`, a boolean, and `indent`. The latter
is the string `tab`, or a table with one entry: `spaces`, a number that fits into a byte, or `tab`,
an empty table or an empty array. A key that is left out leaves its part of the style as it is by
default. Keys are looked at in alphabetical order, and the first mismatch is reported with its
place.
-/

namespace JavaResources.Style

open Toml

/-- The kinds of values, as a message names them. -/
inductive Kind where
  | string
  | integer
  | float
  | boolean
  | dateTime
  | array
  | table
  deriving DecidableEq, Repr

/-- The name of a kind of values. -/
def Kind.text : Kind → String
  | .string => "string"
  | .integer => "integer"
  | .float => "float"
  | .boolean => "boolean"
  | .dateTime => "datetime"
  | .array => "array"
  | .table => "table"

/-- The kind of a value. -/
def kindOf : Value Scalar → Kind
  | .string _ => .string
  | .bare (.boolean _) => .boolean
  | .bare (.integer _) => .integer
  | .bare (.float _) => .float
  | .bare .dateTime => .dateTime
  | .array _ _ => .array
  | .table _ _ => .table

/-- A value as a message shows it. Dates and times count as tables. -/
def shown : Value Scalar → List Char
  | .string text => "string ".toList ++ Text.quoted text.toList
  | .bare (.boolean value) =>
    if value then "boolean `true`".toList else "boolean `false`".toList
  | .bare (.integer value) => "integer `".toList ++ Text.decimal value ++ ['\x60']
  | .bare (.float value) => "floating point `".toList ++ value.text ++ ['\x60']
  | .bare .dateTime => "map".toList
  | .array _ _ => "sequence".toList
  | .table _ _ => "map".toList

/-- The way in which a document does not give a style. -/
inductive Mismatch where
  /-- A style has no part of this name. -/
  | unknownField (name : String)
  /-- There is no indentation of this name. -/
  | unknownVariant (name : String)
  /-- Indentation by spaces is named without their number. -/
  | missingWidth
  /-- A boolean is wanted. -/
  | notBoolean (found : Value Scalar)
  /-- A number of spaces is wanted. -/
  | notWidth (found : Value Scalar)
  /-- The number of spaces does not fit into a byte. -/
  | widthOutOfRange (width : Int)
  /-- An indentation is a string or a table. -/
  | notIndent
  /-- The table of an indentation is empty. -/
  | noEntry
  /-- The table of an indentation has several entries. -/
  | manyEntries
  /-- The table of a tab has entries. -/
  | tableNotEmpty
  /-- The array of a tab has items. -/
  | arrayNotEmpty
  /-- The value of a tab is neither a table nor an array. -/
  | notTable (found : Kind)

/-- The explanation of a mismatch. -/
def Mismatch.message : Mismatch → String
  | .unknownField name => "unknown field `" ++ name ++ "`, expected `use_final` or `indent`"
  | .unknownVariant name => "unknown variant `" ++ name ++ "`, expected `spaces` or `tab`"
  | .missingWidth => "invalid type: unit variant, expected newtype variant"
  | .notBoolean found => "invalid type: " ++ String.ofList (shown found) ++ ", expected a boolean"
  | .notWidth found => "invalid type: " ++ String.ofList (shown found) ++ ", expected u8"
  | .widthOutOfRange width =>
    "invalid value: integer `" ++ String.ofList (Text.decimal width) ++ "`, expected u8"
  | .notIndent => "wanted string or table"
  | .noEntry => "wanted exactly 1 element, found 0 elements"
  | .manyEntries => "wanted exactly 1 element, more than 1 element"
  | .tableNotEmpty => "expected empty table"
  | .arrayNotEmpty => "expected empty array"
  | .notTable found => "expected table, found " ++ found.text

/-- A mismatch and its place in the document. -/
structure Misfit where
  mismatch : Mismatch
  span : Span

/-- The flag that a value gives. -/
def readFlag (node : Node Scalar) : Except Misfit Bool :=
  match node.value with
  | .bare (.boolean flag) => .ok flag
  | found => .error ⟨.notBoolean found, node.span⟩

/-- The number of spaces that a value gives. -/
def readWidth (node : Node Scalar) : Except Misfit UInt8 :=
  match node.value with
  | .bare (.integer width) =>
    if 0 ≤ width ∧ width < 256 then .ok (UInt8.ofNat width.toNat)
    else .error ⟨.widthOutOfRange width, node.span⟩
  | found => .error ⟨.notWidth found, node.span⟩

/-- Check that the value under the key of a tab is empty. -/
def readNothing (node : Node Scalar) : Except Misfit Unit :=
  match node.value with
  | .table _ [] => .ok ()
  | .table _ _ => .error ⟨.tableNotEmpty, node.span⟩
  | .array _ [] => .ok ()
  | .array _ _ => .error ⟨.arrayNotEmpty, node.span⟩
  | found => .error ⟨.notTable (kindOf found), node.span⟩

/-- The indentation that the one entry of a table gives. -/
def readIndentationEntry (entry : Entry Scalar) : Except Misfit Indentation :=
  if entry.key.name = "spaces" then (readWidth entry.node).map .spaces
  else if entry.key.name = "tab" then (readNothing entry.node).map fun _ => .tab
  else .error ⟨.unknownVariant entry.key.name, entry.key.span⟩

/-- The indentation that a value gives. -/
def readIndentation (node : Node Scalar) : Except Misfit Indentation :=
  match node.value with
  | .string name =>
    if name = "tab" then .ok .tab
    else if name = "spaces" then .error ⟨.missingWidth, node.span⟩
    else .error ⟨.unknownVariant name, node.span⟩
  | .table _ [] => .error ⟨.noEntry, node.span⟩
  | .table _ [entry] => readIndentationEntry entry
  | .table _ _ => .error ⟨.manyEntries, node.span⟩
  | _ => .error ⟨.notIndent, node.span⟩

/-- A style changed by one entry of a document. -/
def readEntry (style : Style) (entry : Entry Scalar) : Except Misfit Style :=
  if entry.key.name = "use_final" then
    (readFlag entry.node).map fun finalFields => { style with finalFields }
  else if entry.key.name = "indent" then
    (readIndentation entry.node).map fun indentation => { style with indentation }
  else .error ⟨.unknownField entry.key.name, entry.key.span⟩

/-- Entries in the alphabetical order of their keys. -/
def inKeyOrder (entries : List (Entry Scalar)) : List (Entry Scalar) :=
  entries.mergeSort fun first second => !decide (second.key.name < first.key.name)

/-- The style that a document gives. -/
def ofDocument (document : Document) : Except Misfit Style :=
  (inKeyOrder document.entries).foldlM readEntry {}

end JavaResources.Style
