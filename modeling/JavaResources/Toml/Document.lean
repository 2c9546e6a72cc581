import JavaResources.Toml.Reader
import JavaResources.Toml.Statement

/-!
# Documents from text

A document starts with assignments to its top-level table. Every header then begins a section, whose
assignments go to the table that the header names. A table gets one header at most, but its header
may follow those of the tables within it. `Document.ofText` is a reader by these rules.
-/

namespace JavaResources.Toml

/-- A header with the assignments that follow it. -/
structure Section where
  header : Except Flaw Header
  assignments : List (Except Flaw (Assignment BareText))

/-- The assignments before the first header, and the sections. -/
def sections : List Statement → List (Except Flaw (Assignment BareText)) × List Section
  | [] => ([], [])
  | .assignment assignment :: rest =>
    let (own, others) := sections rest
    (assignment :: own, others)
  | .header header :: rest =>
    let (own, others) := sections rest
    ([], ⟨header, own⟩ :: others)

namespace Header

/-- The table that a header opens, and its place. -/
def node (header : Header) (entries : List (Entry BareText)) : Node BareText :=
  ⟨header.span, .table .header entries⟩

/-- Put the table of a single header among the entries of the table it belongs to. It names a new
table, or one that so far was only implied. -/
def openTable (header : Header) (assignments : List (Except Flaw (Assignment BareText)))
    (parent : List (Entry BareText)) : Except Flaw (List (Entry BareText)) :=
  let key := header.key.last
  match Entry.find? parent key.name with
  | none =>
    (assignAll [] assignments).map fun inner => parent ++ [⟨key, header.node inner⟩]
  | some ⟨_, .table .implied inner⟩ =>
    (assignAll inner assignments).map fun changed =>
      Entry.replace parent ⟨key, header.node changed⟩
  | some _ => .error .malformed

/-- Add the table of a double header to an array of such tables. -/
def pushTable (header : Header) (inner : List (Entry BareText)) (parent : List (Entry BareText)) :
    Except Flaw (List (Entry BareText)) :=
  let key := header.key.last
  match Entry.find? parent key.name with
  | none => .ok (parent ++ [⟨key, ⟨header.span, .array .headers [header.node inner]⟩⟩])
  | some ⟨span, .array .headers items⟩ =>
    .ok (Entry.renew parent key.name ⟨span, .array .headers (items ++ [header.node inner])⟩)
  | some _ => .error .malformed

end Header

/-- Add a section to the top-level table. The place of a single header is looked for before its
table is filled, and that of a double header after. -/
def Section.addTo (root : List (Entry BareText)) (part : Section) :
    Except Flaw (List (Entry BareText)) := do
  let header ← part.header
  if header.doubled then
    let inner ← assignAll [] part.assignments
    changeAt .header (fun _ parent => header.pushTable inner parent) header.key.path .header root
  else
    changeAt .header (fun _ parent => header.openTable part.assignments parent) header.key.path
      .header root

namespace Document

/-- The entries that given statements make, with the texts of their bare values. -/
def entriesOf (statements : List Statement) : Except Flaw (List (Entry BareText)) := do
  let (own, parts) := sections statements
  let root ← assignAll [] own
  parts.foldlM Section.addTo root

/-- The document that a text is. -/
def ofText (text : String) : Except Flaw Document :=
  match (Token.scan? text.toList).bind statements? with
  | none => .error .malformed
  | some statements => do
    let entries ← entriesOf statements
    match Entry.changeAll? Scalar.ofText? entries with
    | none => .error .malformed
    | some entries => return ⟨entries⟩

end Document

end JavaResources.Toml
