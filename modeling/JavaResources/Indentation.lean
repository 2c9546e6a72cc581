/-!
# Units of indentation

One level of indentation is written as a number of spaces or as one tab. The Java sources of this
library use two spaces unless told otherwise.
-/

namespace JavaResources

/-- How one level of indentation is written. -/
inductive Indentation where
  | spaces (width : UInt8)
  | tab
  deriving DecidableEq, Repr

namespace Indentation

/-- The usual indentation of Java sources: two spaces. -/
def java : Indentation :=
  .spaces 2

instance : Inhabited Indentation := ⟨java⟩

/-- The text of one level. -/
def unit : Indentation → String
  | .spaces width => String.ofList (List.replicate width.toNat ' ')
  | .tab => "\t"

end Indentation

end JavaResources
