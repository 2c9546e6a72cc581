import JavaResources.DocComment
import JavaResources.Proofs.Text.Words

/-!
# What a comment has collected

A comment is collected by steps: texts are added to it, and line breaks. Whatever the steps, the
lines of the comment that are not empty are what was left of the lines of the texts, in their order
(`filter_lines_collect`), and its annotations are those of all these lines
(`contains_annotations_collect`).
-/

namespace JavaResources

/-- A step in collecting a comment. -/
inductive DocComment.Step where
  | append (text : String)
  | appendBreak

namespace DocComment

/-- The lines of the text that a step adds. -/
def Step.lines : Step → List (List Char)
  | .append text => Text.lines text.toList
  | .appendBreak => []

/-- Carry out a step. -/
def extend (comment : DocComment) : Step → DocComment
  | .append text => comment.append text
  | .appendBreak => comment.appendBreak

/-- The comment that steps collect, from an empty one. -/
def collect (steps : List Step) : DocComment :=
  steps.foldl extend {}

/-- The lines of all texts that steps add. -/
def linesOf (steps : List Step) : List (List Char) :=
  steps.flatMap Step.lines

theorem linesOf_cons (step : Step) (others : List Step) :
    linesOf (step :: others) = step.lines ++ linesOf others :=
  List.flatMap_cons

/-- What a line of text adds to the lines of a comment: what is left of it, if anything is. -/
def keptOf (line : List Char) : List String :=
  if (readLine (Text.trim line)).text = [] then []
  else [String.ofList (readLine (Text.trim line)).text]

/-- What is kept of a line is what is left of it, and not empty. -/
theorem mem_keptOf {line : List Char} {stored : String} :
    stored ∈ keptOf line
      ↔ stored ≠ "" ∧ stored.toList = (readLine (Text.trim line)).text := by
  unfold keptOf
  generalize (readLine (Text.trim line)).text = text
  split
  · next hnil => simp [hnil]
  · next hne =>
      rw [List.mem_singleton]
      constructor
      · rintro rfl
        exact ⟨by simpa using hne, String.toList_ofList⟩
      · rintro ⟨-, rfl⟩
        exact (String.ofList_toList).symm

/-! ## One line -/

/-- A line that is blank contributes nothing. -/
theorem readLine_nil : readLine [] = ⟨[], {}⟩ := rfl

/-- A line adds what is left of it to the lines, and its annotations to the others. -/
theorem addLine_eq (comment : DocComment) (line : List Char) :
    comment.addLine line
      = { lines := comment.lines ++ keptOf line
          annotations := comment.annotations.union (readLine (Text.trim line)).annotations } := by
  by_cases hblank : Text.trim line = []
  · -- Nothing is read from a blank line, so it might as well have been added.
    have hnothing : comment.annotations.union {} = comment.annotations := by simp [MarkSet.union]
    have hkept : keptOf line = [] := by
      rw [keptOf, hblank, readLine_nil]
      rfl
    rw [hkept, hblank, readLine_nil, hnothing, List.append_nil]
    exact if_pos hblank
  · have hadded : comment.addLine line
        = { lines := if (readLine (Text.trim line)).text = [] then comment.lines
              else comment.lines ++ [String.ofList (readLine (Text.trim line)).text]
            annotations := comment.annotations.union (readLine (Text.trim line)).annotations } :=
      if_neg hblank
    rw [hadded, keptOf]
    split
    · rw [List.append_nil]
    · rfl

/-! ## One step -/

/-- Lines that are added one after the other add what is left of each. -/
theorem lines_foldl_addLine (comment : DocComment) (texts : List (List Char)) :
    (texts.foldl addLine comment).lines = comment.lines ++ texts.flatMap keptOf := by
  induction texts generalizing comment with
  | nil => simp
  | cons line others ih =>
      rw [List.foldl_cons, ih, addLine_eq, List.flatMap_cons, List.append_assoc]

/-- A text adds what is left of its lines. -/
theorem lines_append (comment : DocComment) (text : String) :
    (comment.append text).lines
      = comment.lines ++ (Text.lines text.toList).flatMap keptOf :=
  lines_foldl_addLine comment _

/-- A text adds the annotations of its lines. -/
theorem contains_annotations_append (comment : DocComment) (text : String) (mark : Mark) :
    (comment.append text).annotations.contains mark = true ↔
      comment.annotations.contains mark = true ∨
        ∃ line ∈ Text.lines text.toList,
          (readLine (Text.trim line)).annotations.contains mark = true := by
  unfold append
  induction Text.lines text.toList generalizing comment with
  | nil => simp
  | cons line others ih =>
      rw [List.foldl_cons, ih, addLine_eq, MarkSet.contains_union, Bool.or_eq_true, or_assoc]
      simp

/-- A step adds what is left of its lines, and possibly an empty line. -/
theorem filter_lines_extend (comment : DocComment) (step : Step) :
    (comment.extend step).lines.filter (· ≠ "")
      = comment.lines.filter (· ≠ "") ++ step.lines.flatMap keptOf := by
  cases step with
  | append text =>
      have hkept (line : List Char) : (keptOf line).filter (· ≠ "") = keptOf line := by
        unfold keptOf
        split
        · rfl
        · next hne => simp [hne]
      rw [extend, lines_append, List.filter_append, List.filter_flatMap, Step.lines]
      simp only [hkept]
  | appendBreak =>
      rw [extend, appendBreak]
      split <;> simp [Step.lines]

/-- A step adds the annotations of its lines. -/
theorem contains_annotations_extend (comment : DocComment) (step : Step) (mark : Mark) :
    (comment.extend step).annotations.contains mark = true ↔
      comment.annotations.contains mark = true ∨
        ∃ line ∈ step.lines, (readLine (Text.trim line)).annotations.contains mark = true := by
  cases step with
  | append text => exact contains_annotations_append comment text mark
  | appendBreak =>
      rw [extend, appendBreak]
      split <;> simp [Step.lines]

/-! ## All steps -/

/-- The lines of a comment that are not empty are what is left of the lines of the texts. -/
theorem filter_lines_collect (steps : List Step) :
    (collect steps).lines.filter (· ≠ "") = (linesOf steps).flatMap keptOf := by
  have hrun (comment : DocComment) : (steps.foldl extend comment).lines.filter (· ≠ "")
      = comment.lines.filter (· ≠ "") ++ (linesOf steps).flatMap keptOf := by
    induction steps generalizing comment with
    | nil => simp [linesOf]
    | cons step others ih =>
        rw [List.foldl_cons, ih, filter_lines_extend, linesOf_cons, List.flatMap_append,
          List.append_assoc]
  exact hrun {}

/-- The annotations of a comment are those of the lines of the texts. -/
theorem contains_annotations_collect (steps : List Step) (mark : Mark) :
    (collect steps).annotations.contains mark = true ↔
      ∃ line ∈ linesOf steps,
        (readLine (Text.trim line)).annotations.contains mark = true := by
  have hrun (comment : DocComment) :
      (steps.foldl extend comment).annotations.contains mark = true ↔
        comment.annotations.contains mark = true ∨
          ∃ line ∈ linesOf steps,
            (readLine (Text.trim line)).annotations.contains mark = true := by
    induction steps generalizing comment with
    | nil => simp [linesOf]
    | cons step others ih =>
        rw [List.foldl_cons, ih, contains_annotations_extend, or_assoc, linesOf_cons]
        simp only [List.mem_append, or_and_right, exists_or]
  have hempty : (({} : DocComment).annotations.contains mark) = false := by cases mark <;> rfl
  rw [collect, hrun, hempty]
  simp

end DocComment

end JavaResources
