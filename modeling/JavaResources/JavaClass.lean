import JavaResources.Event
import JavaResources.Member

/-!
# Adding members to a class

The members of a class have different names. Adding a member whose name is taken removes the old one
and puts the new one last, so a class prints its members in the order of their latest addition.
-/

namespace JavaResources

/-- Whether an added member found its name free. -/
inductive AddResult where
  | added
  | overridden
  deriving DecidableEq, Repr

/-- What adding a member gives: the class, whether the name was taken, and the events to log. -/
structure Addition where
  changed : JavaClass
  result : AddResult
  events : List Event

namespace JavaClass

/-- The member of a given name. -/
def get? (javaClass : JavaClass) (name : String) : Option Member :=
  javaClass.members.find? (·.name = name)

/-- The number of members, empty ones included. -/
def size (javaClass : JavaClass) : Nat :=
  javaClass.members.length

/-- The members without the one of a given name, and then a new one. -/
def insertLast (members : List Member) (member : Member) : List Member :=
  members.filter (·.name ≠ member.name) ++ [member]

/-- Add a member, in place of the one that has its name. -/
def add (javaClass : JavaClass) (member : Member) : Addition :=
  let changed := { javaClass with members := insertLast javaClass.members member }
  if (javaClass.get? member.name).isSome then
    ⟨changed, .overridden, [.memberOverridden javaClass.name member.name]⟩
  else ⟨changed, .added, []⟩

/-- Add members one after the other. -/
def addAll (javaClass : JavaClass) (members : List Member) : JavaClass :=
  members.foldl (fun grown member => (grown.add member).changed) javaClass

/-- Adding a member changes nothing but the members. -/
theorem changed_add (javaClass : JavaClass) (member : Member) :
    (javaClass.add member).changed
      = { javaClass with members := insertLast javaClass.members member } := by
  simp only [add]
  split <;> rfl

@[simp]
theorem members_add (javaClass : JavaClass) (member : Member) :
    (javaClass.add member).changed.members = insertLast javaClass.members member := by
  rw [changed_add]

end JavaClass

end JavaResources
