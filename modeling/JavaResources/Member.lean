import JavaResources.DocComment
import JavaResources.ResourceId
import JavaResources.Text.Decimal

/-!
# Class members

The members of a generated class are constant fields, arrays of resource identifiers, methods and
nested classes. Every member has a name, and a class has its members in the order in which they are
printed. This module holds the types; `JavaResources.JavaClass` adds members to a class and
`JavaResources.Layout` prints them.
-/

namespace JavaResources

/-- The value of a constant field. -/
inductive Constant where
  | int (value : Int32)
  | resource (id : ResourceId)
  | string (text : String)
  deriving DecidableEq

namespace Constant

/-- The Java type of a value. -/
def javaType : Constant → String
  | .int _ => "int"
  | .resource _ => "int"
  | .string _ => "String"

/-- The value as Java source. A string stands between quotes as it is, without any escapes. -/
def text : Constant → String
  | .int value => String.ofList (Text.decimal value.toInt)
  | .resource id => id.text
  | .string text => "\"" ++ text ++ "\""

end Constant

/-- A constant field. -/
structure Field where
  name : String
  value : Constant
  comment : DocComment := {}
  deriving DecidableEq

/-- An array of resource identifiers. -/
structure ResourceArray where
  name : String
  elements : List ResourceId
  comment : DocComment := {}
  deriving DecidableEq

/-- A method. Its name only tells it from other members; all that is printed before the body is in
the signature. -/
structure Method where
  name : String
  signature : String
  statements : List String
  deriving DecidableEq

mutual

/-- A member of a class. -/
inductive Member where
  | method (declared : Method)
  | field (declared : Field)
  | array (declared : ResourceArray)
  | nested (inner : JavaClass)

/-- A class. One that is not to be kept when empty is left out if none of its members prints
anything. -/
structure JavaClass where
  name : String
  isStatic : Bool := false
  keepEmpty : Bool := false
  comment : DocComment := {}
  members : List Member := []

end

namespace Member

/-- The name by which a class tells its members apart. -/
def name : Member → String
  | .method declared => declared.name
  | .field declared => declared.name
  | .array declared => declared.name
  | .nested inner => inner.name

end Member

/-! ## Emptiness -/

mutual

/-- A member is empty if it prints nothing, which only a nested class can. -/
def Member.isEmpty : Member → Bool
  | .method _ => false
  | .field _ => false
  | .array _ => false
  | .nested inner => inner.isEmpty

/-- A class is empty if it need not be kept and all its members are empty. -/
def JavaClass.isEmpty : JavaClass → Bool
  | ⟨_, _, keepEmpty, _, members⟩ => !keepEmpty && Member.allEmpty members

/-- All members of a list are empty. -/
def Member.allEmpty : List Member → Bool
  | [] => true
  | member :: others => member.isEmpty && Member.allEmpty others

end

/-- Testing a list of members is testing each of them. -/
theorem Member.allEmpty_eq_all (members : List Member) :
    Member.allEmpty members = members.all Member.isEmpty := by
  induction members with
  | nil => rfl
  | cons member others ih => simp [Member.allEmpty, ih]

theorem JavaClass.isEmpty_eq (inner : JavaClass) :
    inner.isEmpty = (!inner.keepEmpty && inner.members.all Member.isEmpty) := by
  cases inner
  simp [JavaClass.isEmpty, Member.allEmpty_eq_all]

end JavaResources
