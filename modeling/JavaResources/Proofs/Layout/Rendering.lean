import JavaResources.Proofs.Layout.Closed
import JavaResources.Proofs.Pen.Deeper

/-!
# Members as indented text

`Member.rendering` is the text of a member by recursion on the member alone: a body is the text of
its parts with their lines one level deeper, and an empty class is no text at all. No pen, level or
sink occurs in it. `Member.write_rendering` says that a pen at the start of a line writes just this
text, with its lines as deep as the pen is.
-/

namespace JavaResources

/-! ## Renderings -/

/-- The line of a comment block for a line of the comment. -/
def DocComment.blockLine (line : String) : String :=
  if line = "" then " *" else " * " ++ line

/-- The lines of a comment block, if there is text. -/
def DocComment.blockLines (comment : DocComment) : List String :=
  if comment.hasText then "/**" :: comment.lines.map blockLine ++ [" */"] else []

/-- The lines of a comment block, if there is text, and of the annotations below it. -/
def DocComment.printedLines (comment : DocComment) : List String :=
  comment.blockLines ++ comment.annotations.toList.map Mark.text

/-- The text of a comment block with its annotations. -/
def DocComment.rendering (comment : DocComment) : List Char :=
  comment.printedLines.flatMap fun line => line.toList ++ ['\n']

/-- The text of a constant field. -/
def Field.rendering (finalFields : Bool) (field : Field) : List Char :=
  field.comment.rendering
    ++ ("public static " ++ (if finalFields then "final " else "") ++ field.value.javaType ++ " "
      ++ field.name ++ "=" ++ field.value.text ++ ";").toList

/-- Identifiers in rows of four, the last of which may be shorter. -/
def ResourceArray.rows : List ResourceId → List (List ResourceId)
  | first :: second :: third :: fourth :: others => [first, second, third, fourth] :: rows others
  | [] => []
  | last => [last]

/-- The text of a row of identifiers. -/
def ResourceArray.rowText (row : List ResourceId) : List Char :=
  List.intercalate ", ".toList (row.map fun id => id.text.toList)

/-- The text of the rows of an array, each on a line of its own. A comma separates a row from the
next one. -/
def ResourceArray.rowsText : List (List ResourceId) → List Char
  | [] => []
  | row :: others =>
    '\n' :: rowText row ++ (if others.isEmpty then [] else ", ".toList) ++ rowsText others

/-- The text of an array. -/
def ResourceArray.rendering (indentation : Indentation) (array : ResourceArray) : List Char :=
  array.comment.rendering
    ++ ("public static final int[] " ++ array.name ++ "=\x7b").toList
    ++ indentation.indentLines (rowsText (rows array.elements))
    ++ "\n\x7d;".toList

/-- The text of a method. -/
def Method.rendering (indentation : Indentation) (method : Method) : List Char :=
  (method.signature ++ " \x7b\n").toList
    ++ indentation.indentLines
      (method.statements.flatMap fun statement => statement.toList ++ ['\n'])
    ++ "\x7d".toList

/-- The line that a class begins with. -/
def JavaClass.headLine (name : String) (isStatic : Bool) : String :=
  "public " ++ (if isStatic then "static " else "") ++ "final class " ++ name ++ " \x7b"

mutual

/-- The text of a member. -/
def Member.rendering (indentation : Indentation) (finalFields : Bool) : Member → List Char
  | .method declared => declared.rendering indentation
  | .field declared => declared.rendering finalFields
  | .array declared => declared.rendering indentation
  | .nested inner => inner.rendering indentation finalFields

/-- The text of a class, which is none at all if the class is empty. -/
def JavaClass.rendering (indentation : Indentation) (finalFields : Bool) : JavaClass → List Char
  | ⟨name, isStatic, keepEmpty, comment, members⟩ =>
    if JavaClass.isEmpty ⟨name, isStatic, keepEmpty, comment, members⟩ then []
    else
      comment.rendering ++ (JavaClass.headLine name isStatic).toList ++ ['\n']
        ++ Member.bodyRendering indentation finalFields members ++ "\x7d".toList

/-- The text of the members of a class: each one level deeper and followed by the end of its line.
-/
def Member.bodyRendering (indentation : Indentation) (finalFields : Bool) :
    List Member → List Char
  | [] => []
  | member :: others =>
    indentation.indentLines (member.rendering indentation finalFields)
      ++ '\n' :: Member.bodyRendering indentation finalFields others

end

/-! ## Texts of layouts -/

/-- The commands of a comment block write its lines. -/
theorem DocComment.text_blockLayout (comment : DocComment) :
    comment.blockLayout.flatMap Command.text
      = comment.blockLines.flatMap fun line => line.toList ++ ['\n'] := by
  have hline (line : String) : (lineLayout line).flatMap Command.text
      = (blockLine line).toList ++ ['\n'] := by
    unfold lineLayout blockLine
    split <;> simp [Command.text]
  unfold blockLayout blockLines
  split
  · simp [Command.text, List.flatMap_assoc, List.flatMap_map, hline]
  · rfl

/-- The text of a comment is made of its printed lines, each with its end. -/
theorem DocComment.rendering_eq (comment : DocComment) :
    comment.rendering = (comment.printedLines.map String.toList).flatMap (· ++ ['\n']) := by
  rw [rendering, List.flatMap_map]

/-- The commands of a comment write its text. -/
theorem DocComment.text_layout (comment : DocComment) :
    comment.layout.flatMap Command.text = comment.rendering := by
  rw [layout, List.flatMap_append, comment.text_blockLayout, rendering, printedLines,
    List.flatMap_append]
  simp [List.flatMap_map, Command.text]

/-- The commands of a field write its text. -/
theorem Field.text_layout (finalFields : Bool) (field : Field) :
    (field.layout finalFields).flatMap Command.text = field.rendering finalFields := by
  rw [layout, List.append_assoc, List.flatMap_append, field.comment.text_layout, rendering]
  cases finalFields <;> simp [Command.text, String.toList_append]

/-- The commands of the head of a class write its first line. -/
theorem JavaClass.text_headLayout (name : String) (isStatic : Bool) :
    (headLayout name isStatic).flatMap Command.text
      = (headLine name isStatic).toList ++ ['\n'] := by
  cases isStatic <;> simp [headLayout, headLine, Command.text, String.toList_append]

/-- There are rows exactly if there are elements. -/
theorem ResourceArray.isEmpty_rows (elements : List ResourceId) :
    (rows elements).isEmpty = elements.isEmpty := by
  induction elements using rows.induct with
  | case1 | case2 => rfl
  | case3 last hlong hempty =>
      rw [rows.eq_3 last hlong hempty]
      cases last with
      | nil => contradiction
      | cons element others => rfl

/-- The commands of the elements of an array write its rows, the first of which starts where the
number of elements before is a multiple of four. -/
theorem ResourceArray.text_elementLayout (elements : List ResourceId) (index : Nat)
    (hindex : index % idsPerLine = 0) :
    (elementLayout index elements).flatMap Command.text = rowsText (rows elements) := by
  induction elements using rows.induct generalizing index with
  | case1 first second third fourth others ih =>
      obtain ⟨hsecond, hthird, hfourth, hnext⟩ : (index + 1) % idsPerLine ≠ 0 ∧
          (index + 2) % idsPerLine ≠ 0 ∧ (index + 3) % idsPerLine ≠ 0 ∧
          (index + 4) % idsPerLine = 0 := by
        unfold idsPerLine at hindex ⊢
        omega
      have hothers := ih (index + 4) hnext
      have hempty := isEmpty_rows others
      simp [elementLayout, hindex, hsecond, hthird, hfourth, rows, rowsText, rowText, Command.text,
        hothers, hempty, apply_ite (List.flatMap Command.text)]
  | case2 => rfl
  | case3 last hlong hempty =>
      obtain ⟨hsecond, hthird⟩ : (index + 1) % idsPerLine ≠ 0 ∧ (index + 2) % idsPerLine ≠ 0 := by
        unfold idsPerLine at hindex ⊢
        omega
      rcases last with _ | ⟨first, _ | ⟨second, _ | ⟨third, _ | ⟨fourth, others⟩⟩⟩⟩
      · contradiction
      · simp [elementLayout, hindex, rows, rowsText, rowText, Command.text]
      · simp [elementLayout, hindex, rows, rowsText, rowText, Command.text, hsecond]
      · simp [elementLayout, hindex, rows, rowsText, rowText, Command.text, hsecond, hthird]
      · exact absurd rfl (hlong first second third fourth others)

/-! ## The ink of layouts -/

section Ink

open Command Stroke

variable (indentation : Indentation)

/-- Indentation is owed once a line has ended. -/
theorem Stroke.owesAfter_lineFeed (owes : Bool) (level : Nat) (text : List Char) :
    owesAfter owes (ofText level (text ++ ['\n'])) = true := by
  rw [ofText_append, owesAfter_append]
  rfl

/-- The strokes of a head, of a body one level deeper and of an end. -/
theorem Command.strokesAll_scope (level : Nat) {head body last : List Command}
    (hhead : head.all writesText = true) (hbody : Closed body)
    (hlast : last.all writesText = true) :
    strokesAll level (head ++ .enter :: body ++ .leave :: last)
      = ofText level (head.flatMap text) ++ strokesAll (level + 1) body
        ++ ofText level (last.flatMap text) := by
  have hbefore : levelAfterAll level (head ++ .enter :: body) = level + 1 := by
    rw [levelAfterAll_append, (Closed.of_writesText hhead).levelAfterAll_eq]
    exact hbody.levelAfterAll_eq (level + 1)
  have henter : strokesAll level (.enter :: body) = strokesAll (level + 1) body := rfl
  have hleave : strokesAll (level + 1) (.leave :: last) = ofText level (last.flatMap text) :=
    strokesAll_of_writesText hlast level
  rw [strokesAll_append, hbefore, hleave, strokesAll_append,
    (Closed.of_writesText hhead).levelAfterAll_eq, henter, strokesAll_of_writesText hhead]

/-- A method leaves its text. -/
theorem Method.ink_layout (method : Method) :
    ink indentation true (strokesAll 0 method.layout) = method.rendering indentation := by
  have htext : (method.statements.map Command.putLine).flatMap text
      = method.statements.flatMap fun statement => statement.toList ++ ['\n'] := by
    simp [List.flatMap_map, text]
  have hhead : [Command.put method.signature, .putLine " \x7b"].flatMap text
      = (method.signature ++ " \x7b").toList ++ ['\n'] := by
    simp [text]
  rw [method.layout_eq_scope,
    strokesAll_scope 0 rfl (.of_writesText method.writesText_statements) rfl,
    strokesAll_of_writesText method.writesText_statements, htext, hhead, ink_append,
    ink_append, ink_ofText_zero, owesAfter_lineFeed, ink_ofText_one, ink_ofText_zero, rendering]
  simp [text]

/-- The rows of an array start lines of their own, whatever stands before them. -/
theorem ResourceArray.ink_rowsText (owes : Bool) (rows : List (List ResourceId)) :
    ink indentation owes (ofText 1 (rowsText rows)) = indentation.indentLines (rowsText rows) := by
  rw [← ink_ofText_one]
  cases rows with
  | nil => rfl
  | cons row others => rfl

/-- An array leaves its text. -/
theorem ResourceArray.ink_layout (array : ResourceArray) :
    ink indentation true (strokesAll 0 array.layout) = array.rendering indentation := by
  -- The line end behind the last row is drawn in the body, and the brace after it is not.
  have htext : (elementLayout 0 array.elements ++ [Command.endLine]).flatMap text
      = rowsText (rows array.elements) ++ ['\n'] := by
    rw [List.flatMap_append, text_elementLayout array.elements 0 rfl]
    rfl
  rw [array.layout_eq_scope,
    strokesAll_scope 0 array.writesText_head (.of_writesText array.writesText_body) rfl,
    strokesAll_of_writesText array.writesText_body, htext, ink_append, ink_append,
    ink_ofText_zero, ofText_append, ink_append, ink_rowsText, ink_ofText_zero, rendering,
    List.flatMap_append, array.comment.text_layout]
  simp [text, ink, ofText, endsLine]

variable (finalFields : Bool)

/-- After the members of a class, indentation is owed. -/
theorem Member.owesAfter_bodyLayout (level : Nat) (members : List Member) :
    owesAfter true (strokesAll level (Member.bodyLayout finalFields members)) = true := by
  induction members with
  | nil => rfl
  | cons member others ih =>
      have hclosed := member.layout_closed finalFields
      rw [Member.bodyLayout, strokesAll_append, owesAfter_append, hclosed.levelAfterAll_eq]
      exact ih

/-- The text of commands that are carried out at a level from the start of a line on. -/
def Command.textAt (level : Nat) (commands : List Command) : List Char :=
  ink indentation true (strokesAll level commands)

/-- The text of a class that is not empty. -/
theorem JavaClass.textAt_layout (level : Nat) {javaClass : JavaClass}
    (h : ¬ javaClass.isEmpty = true) :
    textAt indentation level (javaClass.layout finalFields)
      = ink indentation true (ofText level (javaClass.comment.rendering
          ++ (headLine javaClass.name javaClass.isStatic).toList))
        ++ '\n' :: textAt indentation (level + 1) (Member.bodyLayout finalFields javaClass.members)
        ++ (indentation.lead level ++ "\x7d".toList) := by
  have hhead := writesText_head javaClass.comment javaClass.name javaClass.isStatic
  have hbody := Member.bodyLayout_closed finalFields javaClass.members
  have hlast : [Command.put "\x7d"].all writesText = true := rfl
  have htext : (javaClass.comment.layout
        ++ headLayout javaClass.name javaClass.isStatic).flatMap Command.text
      = javaClass.comment.rendering ++ (headLine javaClass.name javaClass.isStatic).toList
        ++ ['\n'] := by
    rw [List.flatMap_append, javaClass.comment.text_layout, text_headLayout, List.append_assoc]
  have hbrace : '\n' ∉ "\x7d".toList := by decide
  have hend : ink indentation true (ofText level ([Command.put "\x7d"].flatMap Command.text))
      = indentation.lead level ++ "\x7d".toList :=
    ink_ofText_line indentation hbrace (by decide) level
  rw [textAt, layout_eq, if_neg h, strokesAll_scope level hhead hbody hlast, htext, ink_append,
    ink_append, owesAfter_append, owesAfter_lineFeed, Member.owesAfter_bodyLayout, hend,
    ofText_append, ink_append, List.append_assoc _ (ink indentation _ (ofText level ['\n']))]
  rfl

/-- The text of the members of a class is that of the first one, a line feed, and the others. -/
theorem Member.textAt_bodyLayout (level : Nat) (member : Member)
    (others : List Member) :
    textAt indentation level (Member.bodyLayout finalFields (member :: others))
      = textAt indentation level (member.layout finalFields)
        ++ '\n' :: textAt indentation level (Member.bodyLayout finalFields others) := by
  have hclosed := member.layout_closed finalFields
  rw [textAt, Member.bodyLayout, strokesAll_append, hclosed.levelAfterAll_eq, ink_append]
  rfl

mutual

/-- A member leaves its text. -/
theorem Member.ink_layout : (member : Member) →
    ink indentation true (strokesAll 0 (member.layout finalFields))
      = member.rendering indentation finalFields
  | .method declared => declared.ink_layout indentation
  | .field declared => by
    rw [Member.layout, strokesAll_of_writesText (declared.writesText_layout finalFields),
      declared.text_layout, ink_ofText_zero, Member.rendering]
  | .array declared => declared.ink_layout indentation
  | .nested inner => inner.ink_layout

/-- A class leaves its text. -/
theorem JavaClass.ink_layout : (javaClass : JavaClass) →
    ink indentation true (strokesAll 0 (javaClass.layout finalFields))
      = javaClass.rendering indentation finalFields
  | ⟨name, isStatic, keepEmpty, comment, members⟩ => by
    by_cases hempty : JavaClass.isEmpty ⟨name, isStatic, keepEmpty, comment, members⟩ = true
    · rw [JavaClass.layout_eq, JavaClass.rendering, if_pos hempty, if_pos hempty]
      rfl
    · have hbody := Member.ink_bodyLayout members
      have htext := JavaClass.textAt_layout indentation finalFields 0 hempty
      rw [textAt, textAt, ink_ofText_zero, hbody] at htext
      rw [htext, JavaClass.rendering, if_neg hempty]
      simp [Indentation.lead]

/-- The members of a class leave their text, one level deeper and at the start of a line again. -/
theorem Member.ink_bodyLayout : (members : List Member) →
    ink indentation true (strokesAll 1 (Member.bodyLayout finalFields members))
      = Member.bodyRendering indentation finalFields members
  | [] => rfl
  | member :: others => by
    have hmember := member.ink_layout
    have hothers := Member.ink_bodyLayout others
    have htext := Member.textAt_bodyLayout indentation finalFields 1 member others
    rw [textAt, textAt, textAt, (member.layout_closed finalFields).strokesAll_eq, ink_deepen,
      hmember, hothers] at htext
    rw [htext, Member.bodyRendering]
    rfl

end

end Ink

/-- A new pen on a sink that refuses nothing writes the text of a class. -/
theorem JavaClass.written_write (javaClass : JavaClass) (finalFields : Bool)
    (indentation : Indentation) {sink : Sink} (hsink : sink.Unlimited) :
    (javaClass.write finalFields { indentation, sink }).fault = none ∧
      (javaClass.write finalFields { indentation, sink }).state.sink.written.toList
        = sink.written.toList ++ Text.encode (javaClass.rendering indentation finalFields) := by
  have hclosed := javaClass.layout_closed finalFields
  have hwritten := Pen.performAll_indentLines hclosed { indentation, sink } hsink rfl
  rw [JavaClass.ink_layout] at hwritten
  exact hwritten

/-- At the start of a line, a pen on a sink that refuses nothing writes any member: the text of the
member with its lines as deep as the pen is. -/
theorem Member.write_rendering (member : Member) (finalFields : Bool) (pen : Pen)
    (hsink : pen.sink.Unlimited) (hstart : pen.owesIndent = true) :
    (member.write finalFields pen).fault = none ∧
      (member.write finalFields pen).state.sink.written.toList
        = pen.sink.written.toList ++ Text.encode
          (pen.indentation.indentLines^[pen.level]
            (member.rendering pen.indentation finalFields)) := by
  have hclosed := member.layout_closed finalFields
  have hwrote := Pen.performAll_wrote (hclosed.permitted_at pen.level)
  rw [hstart, hclosed.strokesAll_eq, Stroke.ink_deepen, Member.ink_layout] at hwrote
  exact hwrote.of_unlimited hsink

/-- A class at level one, with a statement of three lines and a class that is left out. -/
theorem Member.write_rendering_nested :
    Sink.Unlimited { chunk := some 1 } ∧
      (Member.write (.nested ⟨"A", true, false, { lines := ["x"] },
        [.method ⟨"m", "void m()", ["a;\n\nb;"]⟩, .nested ⟨"E", true, false, {}, []⟩]⟩) true
        { indentation := .spaces 1, level := 1, sink := { chunk := some 1 } }).fault = none ∧
      (Member.write (.nested ⟨"A", true, false, { lines := ["x"] },
        [.method ⟨"m", "void m()", ["a;\n\nb;"]⟩, .nested ⟨"E", true, false, {}, []⟩]⟩) true
        { indentation := .spaces 1, level := 1, sink := { chunk := some 1 } }
          ).state.sink.written.toList
        = Text.encode (" /**\n  * x\n  */\n public static final class A \x7b\n"
            ++ "  void m() \x7b\n   a;\n\n   b;\n  \x7d\n\n \x7d").toList := by
  have hsink : Sink.Unlimited { chunk := some 1 } := rfl
  obtain ⟨hfault, hwritten⟩ := Member.write_rendering
    (.nested ⟨"A", true, false, { lines := ["x"] },
      [.method ⟨"m", "void m()", ["a;\n\nb;"]⟩, .nested ⟨"E", true, false, {}, []⟩]⟩) true
    { indentation := .spaces 1, level := 1, sink := { chunk := some 1 } } hsink rfl
  refine ⟨hsink, hfault, hwritten.trans ?_⟩
  decide +kernel

end JavaResources
