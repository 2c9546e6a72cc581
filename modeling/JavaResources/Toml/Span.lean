/-!
# Places in a document

A span says where something stands in a document, in bytes of its UTF-8 form.
-/

namespace JavaResources.Toml

/-- The first byte of something, and how many bytes it has. -/
structure Span where
  start : Nat
  size : Nat
  deriving DecidableEq, Repr

namespace Span

/-- The first byte behind a span. -/
def stop (span : Span) : Nat :=
  span.start + span.size

/-- The span from the start of one span to the end of another. -/
def through (first last : Span) : Span :=
  ⟨first.start, last.stop - first.start⟩

end Span

end JavaResources.Toml
