/-!
# Reading from the front of a list

A reader takes something off the front of its input and gives what is left. Each reader of this
library shows with its result that what is left is shorter than its input, so a reader that repeats
others ends.
-/

namespace JavaResources.Toml

/-- Nothing, or something read from the front of the input with what is left of it. -/
abbrev Reading (τ α : Type) (input : List τ) :=
  Option (α × { rest : List τ // rest.length < input.length })

/-- What is left of an input behind a part of it that may be empty. -/
abbrev Remainder {τ : Type} (input : List τ) :=
  { rest : List τ // rest.length ≤ input.length }

namespace Reading

variable {τ α β : Type}

/-- Something that was read, with what is left. -/
def found {input : List τ} (value : α) (rest : List τ) (hrest : rest.length < input.length) :
    Reading τ α input :=
  some (value, ⟨rest, hrest⟩)

/-- A reading of a later part of an input is a reading of the input. -/
def behind {later input : List τ} (hlater : later.length ≤ input.length)
    (reading : Reading τ α later) : Reading τ α input :=
  reading.map fun (value, rest) => (value, ⟨rest.1, Nat.lt_of_lt_of_le rest.2 hlater⟩)

/-- Change the value that was read. -/
def mapValue {input : List τ} (change : α → β) (reading : Reading τ α input) :
    Reading τ β input :=
  reading.map fun (value, rest) => (change value, rest)

/-- Read on from what is left. -/
def andThen {input : List τ} (first : Reading τ α input)
    (next : α → (rest : List τ) → Reading τ β rest) : Reading τ β input :=
  match first with
  | none => none
  | some (value, rest) => (next value rest.1).behind (Nat.le_of_lt rest.2)

end Reading

/-- Dropping a part of a list leaves no more than the list. -/
theorem length_dropWhile_le {τ : Type} (test : τ → Bool) (input : List τ) :
    (input.dropWhile test).length ≤ input.length :=
  (List.dropWhile_sublist test).length_le

end JavaResources.Toml
