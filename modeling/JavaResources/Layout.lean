import JavaResources.Member
import JavaResources.Pen.Command

/-!
# The layout of Java declarations

`Member.layout` gives the commands that write a member. A declaration that has a body writes it one
level deeper between braces, the members of a class are each followed by a line end, and an array
has four identifiers to a line. Empty classes are left out, but not the line end that follows them.
-/

namespace JavaResources

/-- The number of identifiers on a line of an array. -/
def idsPerLine : Nat := 4

/-- The commands that write a constant field. -/
def Field.layout (finalFields : Bool) (field : Field) : List Command :=
  field.comment.layout
    ++ .put "public static " :: (if finalFields then [.put "final "] else [])
    ++ [.put
      (field.value.javaType ++ " " ++ field.name ++ "=" ++ field.value.text ++ ";")]

/-- The commands that write the elements of an array from the one at `index` on. Every fourth one
starts a line, and a comma follows every one that is not the last. -/
def ResourceArray.elementLayout (index : Nat) : List ResourceId → List Command
  | [] => []
  | element :: others =>
    (if index % idsPerLine = 0 then [.endLine] else [])
      ++ .put element.text :: (if others.isEmpty then [] else [.put ", "])
      ++ elementLayout (index + 1) others

/-- The commands that write an array. It is final whatever the fields are. -/
def ResourceArray.layout (array : ResourceArray) : List Command :=
  array.comment.layout
    ++ [.put ("public static final int[] " ++ array.name ++ "=\x7b"), .enter]
    ++ elementLayout 0 array.elements
    ++ [.endLine, .leave, .put "\x7d;"]

/-- The commands that write a method. -/
def Method.layout (method : Method) : List Command :=
  [.put method.signature, .putLine " \x7b", .enter]
    ++ method.statements.map .putLine
    ++ [.leave, .put "\x7d"]

/-- The commands that write the head of a class, up to its opening brace. -/
def JavaClass.headLayout (name : String) (isStatic : Bool) : List Command :=
  .put "public " :: (if isStatic then [.put "static "] else [])
    ++ [.put "final class ", .put name, .putLine " \x7b"]

mutual

/-- The commands that write a member, with constant fields final or not. -/
def Member.layout (finalFields : Bool) : Member → List Command
  | .method declared => declared.layout
  | .field declared => declared.layout finalFields
  | .array declared => declared.layout
  | .nested inner => inner.layout finalFields

/-- The commands that write a class. There are none if it is empty. -/
def JavaClass.layout (finalFields : Bool) : JavaClass → List Command
  | ⟨name, isStatic, keepEmpty, comment, members⟩ =>
    if !keepEmpty && Member.allEmpty members then []
    else
      comment.layout ++ JavaClass.headLayout name isStatic
        ++ .enter :: Member.bodyLayout finalFields members
        ++ [.leave, .put "\x7d"]

/-- The commands that write the members of a class, each followed by a line end. -/
def Member.bodyLayout (finalFields : Bool) : List Member → List Command
  | [] => []
  | member :: others =>
    member.layout finalFields ++ .endLine :: Member.bodyLayout finalFields others

end

/-- The layout of a class in terms of its parts. -/
theorem JavaClass.layout_eq (finalFields : Bool) (inner : JavaClass) :
    inner.layout finalFields =
      if inner.isEmpty then []
      else
        inner.comment.layout ++ JavaClass.headLayout inner.name inner.isStatic
          ++ .enter :: Member.bodyLayout finalFields inner.members
          ++ [.leave, .put "\x7d"] := by
  cases inner
  rfl

/-- Write a member with a pen. -/
def Member.write (member : Member) (finalFields : Bool) (pen : Pen) :
    Outcome Pen.Fault Pen :=
  Pen.performAll (member.layout finalFields) pen

/-- Write a class with a pen. -/
def JavaClass.write (javaClass : JavaClass) (finalFields : Bool) (pen : Pen) :
    Outcome Pen.Fault Pen :=
  Pen.performAll (javaClass.layout finalFields) pen

end JavaResources
