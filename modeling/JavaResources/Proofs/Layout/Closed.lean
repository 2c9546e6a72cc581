import JavaResources.Layout
import JavaResources.Proofs.Pen.Levels

/-!
# Layouts keep to their level

The commands that write a member enter the level of its body and leave it again. At whatever level
a layout begins it ends there, it never goes below, and so it can be carried out by any pen.
-/

namespace JavaResources

open Command

/-- A documentation comment is written at one level. -/
theorem DocComment.writesText_layout (comment : DocComment) :
    comment.layout.all writesText = true := by
  have hline (line : String) : (lineLayout line).all writesText = true := by
    unfold lineLayout
    split <;> rfl
  have hblock : comment.blockLayout.all writesText = true := by
    unfold blockLayout
    split
    · simp [writesText, List.all_flatMap, hline]
    · rfl
  simp [layout, hblock, writesText]

/-- A constant field is written at one level. -/
theorem Field.writesText_layout (finalFields : Bool) (field : Field) :
    (field.layout finalFields).all writesText = true := by
  rw [layout, List.append_assoc, List.all_append, field.comment.writesText_layout]
  cases finalFields <;> rfl

/-- The elements of an array are written at one level. -/
theorem ResourceArray.writesText_elementLayout (index : Nat) (elements : List ResourceId) :
    (elementLayout index elements).all writesText = true := by
  induction elements generalizing index with
  | nil => rfl
  | cons element others ih =>
      rw [elementLayout, List.all_append, List.all_append, ih]
      split <;> split <;> rfl

/-- The head of a class is written at one level. -/
theorem JavaClass.writesText_headLayout (name : String) (isStatic : Bool) :
    (headLayout name isStatic).all writesText = true := by
  cases isStatic <;> rfl

/-- The comment and the first line of a class are written at one level. -/
theorem JavaClass.writesText_head (comment : DocComment) (name : String) (isStatic : Bool) :
    (comment.layout ++ headLayout name isStatic).all writesText = true := by
  rw [List.all_append, comment.writesText_layout, writesText_headLayout]
  rfl

/-- The statements of a method are written at one level. -/
theorem Method.writesText_statements (method : Method) :
    (method.statements.map Command.putLine).all writesText = true := by
  simp [writesText]

/-- The comment and the first line of an array are written at one level. -/
theorem ResourceArray.writesText_head (array : ResourceArray) :
    (array.comment.layout
      ++ [Command.put ("public static final int[] " ++ array.name ++ "=\x7b")]).all writesText
        = true := by
  rw [List.all_append, array.comment.writesText_layout]
  rfl

/-- The body of an array, with the line end behind the last row, is written at one level. -/
theorem ResourceArray.writesText_body (array : ResourceArray) :
    (elementLayout 0 array.elements ++ [Command.endLine]).all writesText = true := by
  rw [List.all_append, writesText_elementLayout]
  rfl

/-- A method is a head, a body one level deeper and an end. -/
theorem Method.layout_eq_scope (method : Method) :
    method.layout = [.put method.signature, .putLine " \x7b"]
      ++ .enter :: method.statements.map .putLine ++ .leave :: [.put "\x7d"] := by
  simp [layout]

/-- An array is a head, a body one level deeper and an end. -/
theorem ResourceArray.layout_eq_scope (array : ResourceArray) :
    array.layout = (array.comment.layout
      ++ [.put ("public static final int[] " ++ array.name ++ "=\x7b")])
      ++ .enter :: (elementLayout 0 array.elements ++ [.endLine]) ++ .leave :: [.put "\x7d;"] := by
  simp [layout]

/-- Writing a method ends at the level that it began at. -/
theorem Method.layout_closed (method : Method) : Closed method.layout := by
  rw [method.layout_eq_scope]
  exact .of_scope rfl (.of_writesText method.writesText_statements) rfl

/-- Writing an array ends at the level that it began at. -/
theorem ResourceArray.layout_closed (array : ResourceArray) : Closed array.layout := by
  rw [array.layout_eq_scope]
  exact .of_scope array.writesText_head (.of_writesText array.writesText_body) rfl

mutual

/-- Writing a member ends at the level that it began at. -/
theorem Member.layout_closed (finalFields : Bool) :
    (member : Member) → Closed (member.layout finalFields)
  | .method declared => declared.layout_closed
  | .field declared => .of_writesText (declared.writesText_layout finalFields)
  | .array declared => declared.layout_closed
  | .nested inner => inner.layout_closed finalFields

/-- Writing a class ends at the level that it began at. -/
theorem JavaClass.layout_closed (finalFields : Bool) :
    (javaClass : JavaClass) → Closed (javaClass.layout finalFields)
  | ⟨name, isStatic, keepEmpty, comment, members⟩ => by
    have hbody := Member.bodyLayout_closed finalFields members
    rw [JavaClass.layout]
    split
    · exact .of_writesText rfl
    · exact .of_scope (JavaClass.writesText_head comment name isStatic) hbody rfl

/-- Writing the members of a class ends at the level that it began at. -/
theorem Member.bodyLayout_closed (finalFields : Bool) :
    (members : List Member) → Closed (Member.bodyLayout finalFields members)
  | [] => .of_writesText rfl
  | member :: others => by
    have hmember := member.layout_closed finalFields
    have hothers := Member.bodyLayout_closed finalFields others
    have hend : Closed [.endLine] := .of_writesText rfl
    rw [Member.bodyLayout]
    exact hmember.append (hend.append hothers)

end

end JavaResources
