/-!
# What is wrong with a document

A text that breaks the rules of documents is none. The flaw that counts is found in three rounds:
first how the symbols of the text stand together, then its keys and values from the first to the
last, and at the end whether its numbers have a value.
-/

namespace JavaResources.Toml

/-- Why a text is no document. -/
inductive Flaw where
  /-- Something at some place in the text is against the rules. -/
  | malformed
  /-- A dotted key has too many parts. This is said of no place in the text. -/
  | longKey
  deriving DecidableEq, Repr

end JavaResources.Toml
