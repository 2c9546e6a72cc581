import JavaResources.Toml.Flaw
import JavaResources.Toml.Scalar
import JavaResources.Toml.Value

/-!
# Readers of documents

A document is its top-level table. Which texts are documents is up to a reader, and whatever looks
at documents works with any reader. `Reader.DistinctKeys` is the one rule of documents that it
relies on: no key has two values.
-/

namespace JavaResources.Toml

/-- The entries of the top-level table. -/
structure Document where
  entries : List (Entry Scalar)

/-- From a text to the document that it is, or to the flaw because of which it is none. -/
abbrev Reader := String → Except Flaw Document

/-- In every document that is read, the keys of the top-level table are different. -/
def Reader.DistinctKeys (read : Reader) : Prop :=
  ∀ text document, read text = .ok document →
    (document.entries.map fun entry => entry.key.name).Nodup

end JavaResources.Toml
