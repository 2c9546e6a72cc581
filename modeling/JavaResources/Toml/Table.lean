import JavaResources.Toml.Flaw
import JavaResources.Toml.Value

/-!
# Building tables

An assignment adds an entry to a table, and the parts of a dotted key before the last one name
tables within it. `changeAt` follows such a path, making the tables that are missing, and does the
same for the path of a header. Neither adds to what is already complete: a key is given a value
once, a table in braces or an array in brackets takes nothing more, and a table with a header takes
nothing by dotted keys.
-/

namespace JavaResources.Toml

/-- A dotted key: the parts before the last one, and the last one. -/
structure DottedKey where
  path : List Key
  last : Key

/-- A value given to a key. -/
structure Assignment (σ : Type) where
  key : DottedKey
  node : Node σ

variable {σ : Type}

/-- How a path leads on from a table: by the dots of a key, or of a header. -/
inductive Step where
  | key
  | header
  deriving DecidableEq, Repr

/-- The origin of a table that is made because a path leads through it. -/
def Step.origin : Step → Table.Origin
  | .key => .dotted
  | .header => .implied

/-- Whether a path may lead through a table that was written already. -/
def Step.enters : Step → Table.Origin → Bool
  | _, .braces => false
  | .key, .header => false
  | _, _ => true

/-- A change of a table: from its origin and its entries to new entries, if it is allowed. -/
abbrev Change (σ : Type) := Table.Origin → List (Entry σ) → Except Flaw (List (Entry σ))

/-- Change the last item of an array, which is a table. -/
def changeLast (change : Change σ) : List (Node σ) → Except Flaw (List (Node σ))
  | [] => .error .malformed
  | [⟨span, .table origin entries⟩] =>
    (change origin entries).map fun changed => [⟨span, .table origin changed⟩]
  | [_] => .error .malformed
  | node :: others => (changeLast change others).map (node :: ·)

/-- Follow a path and change the table at its end. Missing tables are made on the way, and through
an array of tables the path leads to its last one. -/
def changeAt (step : Step) (change : Change σ) :
    List Key → Table.Origin → List (Entry σ) → Except Flaw (List (Entry σ))
  | [], origin, entries => change origin entries
  | key :: path, _, entries =>
    match Entry.find? entries key.name with
    | none =>
      (changeAt step change path step.origin []).map fun inner =>
        entries ++ [⟨key, ⟨key.span, .table step.origin inner⟩⟩]
    | some ⟨span, .table origin inner⟩ =>
      if step.enters origin then
        (changeAt step change path origin inner).map fun changed =>
          Entry.renew entries key.name ⟨span, .table origin changed⟩
      else .error .malformed
    | some ⟨span, .array .headers items⟩ =>
      (changeLast (changeAt step change path) items).map fun changed =>
        Entry.renew entries key.name ⟨span, .array .headers changed⟩
    | some _ => .error .malformed

/-- Add an entry under a new key. -/
def addEntry (entries : List (Entry σ)) (entry : Entry σ) : Except Flaw (List (Entry σ)) :=
  match Entry.find? entries entry.key.name with
  | none => .ok (entries ++ [entry])
  | some _ => .error .malformed

/-- Give a key its value. A dotted key ends in a table that dotted keys have made. -/
def assign (entries : List (Entry σ)) (assignment : Assignment σ) : Except Flaw (List (Entry σ)) :=
  let last : Entry σ := ⟨assignment.key.last, assignment.node⟩
  match assignment.key.path with
  | [] => addEntry entries last
  | path =>
    changeAt .key
      (fun origin inner => if origin = .dotted then addEntry inner last else .error .malformed)
      path .header entries

/-- Make assignments one after the other, up to the first that has a flaw. -/
def assignAll (entries : List (Entry σ)) (assignments : List (Except Flaw (Assignment σ))) :
    Except Flaw (List (Entry σ)) :=
  assignments.foldlM (fun entries assignment => assignment.bind (assign entries)) entries

end JavaResources.Toml
