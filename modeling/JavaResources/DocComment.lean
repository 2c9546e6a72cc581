import JavaResources.Pen.Command
import JavaResources.Text.Blank
import JavaResources.Text.Search

/-!
# Documentation comments and annotations

A documentation comment is collected line by line. Three doc tags of a line stand for annotations of
the declaration below the comment: `@deprecated`, which stays in the text, and `@SystemApi` and
`@TestApi`, whose first occurrence in the line is deleted. `DocComment.append` reads text and
`DocComment.layout` prints the comment block with its annotations.
-/

namespace JavaResources

/-- An annotation that a doc tag stands for. -/
inductive Mark where
  | deprecated
  | systemApi
  | testApi
  deriving DecidableEq, Repr

namespace Mark

/-- The annotations in the order in which they are printed. -/
def all : List Mark :=
  [.deprecated, .systemApi, .testApi]

/-- The place of an annotation in the printed order. -/
def rank : Mark → Nat
  | .deprecated => 0
  | .systemApi => 1
  | .testApi => 2

/-- Annotations put into the printed order, repeated ones included. -/
def sort (annotations : List Mark) : List Mark :=
  annotations.mergeSort fun first second => first.rank ≤ second.rank

/-- The annotation as Java source. -/
def text : Mark → String
  | .deprecated => "@Deprecated"
  | .systemApi => "@android.annotation.SystemApi"
  | .testApi => "@android.annotation.TestApi"

/-- The doc tag that stands for the annotation. -/
def tag : Mark → String
  | .deprecated => "@deprecated"
  | .systemApi => "@SystemApi"
  | .testApi => "@TestApi"

end Mark

/-- A set of annotations. -/
structure MarkSet where
  deprecated : Bool := false
  systemApi : Bool := false
  testApi : Bool := false
  deriving DecidableEq, Repr

namespace MarkSet

/-- Whether an annotation is in the set. -/
def contains (set : MarkSet) : Mark → Bool
  | .deprecated => set.deprecated
  | .systemApi => set.systemApi
  | .testApi => set.testApi

/-- The annotations that are in either set. -/
def union (first second : MarkSet) : MarkSet where
  deprecated := first.deprecated || second.deprecated
  systemApi := first.systemApi || second.systemApi
  testApi := first.testApi || second.testApi

/-- The annotations of the set in the order in which they are printed. -/
def toList (set : MarkSet) : List Mark :=
  Mark.all.filter set.contains

@[simp]
theorem contains_union (first second : MarkSet) (mark : Mark) :
    (first.union second).contains mark
      = (first.contains mark || second.contains mark) := by
  cases mark <;> rfl

theorem mem_toList {set : MarkSet} {mark : Mark} :
    mark ∈ set.toList ↔ set.contains mark = true := by
  cases mark <;> simp [toList, Mark.all]

/-- A set is known by its members. -/
theorem eq_of_contains {first second : MarkSet}
    (h : ∀ mark, first.contains mark = second.contains mark) : first = second := by
  obtain ⟨deprecated, systemApi, testApi⟩ := first
  obtain rfl : deprecated = second.deprecated := h .deprecated
  obtain rfl : systemApi = second.systemApi := h .systemApi
  obtain rfl : testApi = second.testApi := h .testApi
  rfl

end MarkSet

/-- A documentation comment: its lines, an empty one for an empty comment line, and the annotations
found in it. -/
structure DocComment where
  lines : List String := []
  annotations : MarkSet := {}
  deriving DecidableEq, Repr

namespace DocComment

/-- What one line of text contributes to a comment. -/
structure Contribution where
  text : List Char
  annotations : MarkSet

/-- A line without the first occurrence of a tag, and whether it had one. -/
def stripTag (mark : Mark) (line : List Char) : List Char × Bool :=
  match Text.without? mark.tag.toList line with
  | some rest => (rest, true)
  | none => (line, false)

/-- What a line contributes. The tag of the test API is looked for in what deleting the tag of the
system API has left, and blanks that deleting has laid bare are trimmed. -/
def readLine (line : List Char) : Contribution :=
  let (inner, systemApi) := stripTag .systemApi line
  let (rest, testApi) := stripTag .testApi inner
  { text := Text.trim rest
    annotations :=
      { deprecated := Text.occursIn Mark.deprecated.tag.toList line, systemApi, testApi } }

/-- Add one line of text. A blank line adds nothing, and neither does the text of a line that held
only tags. -/
def addLine (comment : DocComment) (line : List Char) : DocComment :=
  let line := Text.trim line
  if line = [] then comment
  else
    let contribution := readLine line
    { lines :=
        if contribution.text = [] then comment.lines
        else comment.lines ++ [String.ofList contribution.text]
      annotations := comment.annotations.union contribution.annotations }

/-- Add text line by line. -/
def append (comment : DocComment) (text : String) : DocComment :=
  (Text.lines text.toList).foldl addLine comment

/-- Whether the comment has any text. -/
def hasText (comment : DocComment) : Bool :=
  !comment.lines.isEmpty

/-- Add an empty comment line, unless there is no text yet. -/
def appendBreak (comment : DocComment) : DocComment :=
  if comment.hasText then { comment with lines := comment.lines ++ [""] } else comment

/-- The commands that write one line of the comment block. -/
def lineLayout (line : String) : List Command :=
  if line = "" then [.putLine " *"] else [.put " * ", .putLine line]

/-- The commands that write the comment block, if there is text. -/
def blockLayout (comment : DocComment) : List Command :=
  if comment.hasText then
    .putLine "/**" :: comment.lines.flatMap lineLayout ++ [.putLine " */"]
  else []

/-- The commands that write the comment block and then each annotation on a line of its own. -/
def layout (comment : DocComment) : List Command :=
  comment.blockLayout ++ comment.annotations.toList.map fun mark => .putLine mark.text

end DocComment

end JavaResources
