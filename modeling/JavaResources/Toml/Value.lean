import JavaResources.Toml.Span

/-!
# Values of a document

A document is a table, and a table is a list of entries with different keys, each of which has a
value. Keys and values remember where they stand. Tables and arrays also remember how they were
written, since that decides what a later part of the document may add to them. While a document is
put together its bare values are texts; in the end they are scalars.
-/

namespace JavaResources.Toml

/-- The name of an entry, and where it stands. -/
structure Key where
  name : String
  span : Span
  deriving DecidableEq, Repr

/-- How a table was written. -/
inductive Table.Origin where
  /-- Between braces. Nothing can be added to it. -/
  | braces
  /-- By a header of its own. -/
  | header
  /-- By the header of a table within it. It can still get a header of its own. -/
  | implied
  /-- By a dotted key. Other dotted keys can add to it. -/
  | dotted
  deriving DecidableEq, Repr

/-- How an array was written. -/
inductive Array.Origin where
  /-- Between brackets. Nothing can be added to it. -/
  | brackets
  /-- By headers in double brackets, each of which adds a table. -/
  | headers
  deriving DecidableEq, Repr

mutual

/-- A value. Its bare values are of type `σ`. -/
inductive Value (σ : Type) where
  | string (text : String)
  | bare (content : σ)
  | array (origin : Array.Origin) (items : List (Node σ))
  | table (origin : Table.Origin) (entries : List (Entry σ))

/-- A value with its place. -/
structure Node (σ : Type) where
  span : Span
  value : Value σ

/-- A key with its value. -/
structure Entry (σ : Type) where
  key : Key
  node : Node σ

end

variable {σ τ : Type}

mutual

/-- A value with its bare values changed, unless one of them cannot be. -/
def Value.change? (change : σ → Option τ) : Value σ → Option (Value τ)
  | .string text => some (.string text)
  | .bare content => (change content).map .bare
  | .array origin items => (Node.changeAll? change items).map (.array origin)
  | .table origin entries => (Entry.changeAll? change entries).map (.table origin)

/-- The items of an array with their bare values changed. -/
def Node.changeAll? (change : σ → Option τ) : List (Node σ) → Option (List (Node τ))
  | [] => some []
  | ⟨span, value⟩ :: others => do
    let changed ← value.change? change
    let rest ← Node.changeAll? change others
    return ⟨span, changed⟩ :: rest

/-- The entries of a table with their bare values changed. -/
def Entry.changeAll? (change : σ → Option τ) : List (Entry σ) → Option (List (Entry τ))
  | [] => some []
  | ⟨key, ⟨span, value⟩⟩ :: others => do
    let changed ← value.change? change
    let rest ← Entry.changeAll? change others
    return ⟨key, ⟨span, changed⟩⟩ :: rest

end

/-- The value under a name. -/
def Entry.find? (entries : List (Entry σ)) (name : String) : Option (Node σ) :=
  (entries.find? (·.key.name = name)).map (·.node)

/-- The entries with a new value under a name. The key stays as it was written first. -/
def Entry.renew (entries : List (Entry σ)) (name : String) (node : Node σ) : List (Entry σ) :=
  entries.map fun entry => if entry.key.name = name then { entry with node } else entry

/-- The entries with a new entry in the place of the one that had its name. -/
def Entry.replace (entries : List (Entry σ)) (changed : Entry σ) : List (Entry σ) :=
  entries.map fun entry => if entry.key.name = changed.key.name then changed else entry

end JavaResources.Toml
