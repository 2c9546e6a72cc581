import JavaResources.Indentation

/-!
# The style of Java sources

The style says whether constant fields are final and how a level is indented. Fields are final and
indented by two spaces unless told otherwise.
-/

namespace JavaResources

/-- How Java sources are rendered. -/
structure Style where
  finalFields : Bool := true
  indentation : Indentation := .java
  deriving DecidableEq, Repr

end JavaResources
