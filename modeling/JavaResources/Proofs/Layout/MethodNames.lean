import JavaResources.SourceFile

/-!
# Names of methods

The name of a method only tells it from the other members of its class, and nothing that is printed
depends on it. `forgetMethodNames` is a class in which all methods have lost their names:
`layout_eq_of_forgetMethodNames_eq` says that classes which are alike in this way are written by the
same commands, and `map_isEmpty_descend_eq` that their classes are empty in the same places.
-/

namespace JavaResources

/-! ## Forgetting the names -/

mutual

/-- A member in which the names of all methods are forgotten. -/
def Member.forgetMethodNames : Member → Member
  | .method declared => .method { declared with name := "" }
  | .field declared => .field declared
  | .array declared => .array declared
  | .nested inner => .nested inner.forgetMethodNames

/-- A class in which the names of all methods are forgotten. -/
def JavaClass.forgetMethodNames : JavaClass → JavaClass
  | ⟨name, isStatic, keepEmpty, comment, members⟩ =>
    ⟨name, isStatic, keepEmpty, comment, Member.forgetAllMethodNames members⟩

/-- Members in which the names of all methods are forgotten. -/
def Member.forgetAllMethodNames : List Member → List Member
  | [] => []
  | member :: others => member.forgetMethodNames :: Member.forgetAllMethodNames others

end

theorem Member.forgetAllMethodNames_eq_map (members : List Member) :
    Member.forgetAllMethodNames members = members.map Member.forgetMethodNames := by
  induction members with
  | nil => rfl
  | cons member others ih => rw [Member.forgetAllMethodNames, ih, List.map_cons]

theorem JavaClass.members_forgetMethodNames (javaClass : JavaClass) :
    javaClass.forgetMethodNames.members = javaClass.members.map Member.forgetMethodNames := by
  cases javaClass
  rw [forgetMethodNames, Member.forgetAllMethodNames_eq_map]

/-! ## Emptiness -/

mutual

/-- The names of methods do not make a member empty. -/
theorem Member.isEmpty_forgetMethodNames : (member : Member) →
    member.forgetMethodNames.isEmpty = member.isEmpty
  | .method _ => rfl
  | .field _ => rfl
  | .array _ => rfl
  | .nested inner => inner.isEmpty_forgetMethodNames

/-- The names of methods do not make a class empty. -/
theorem JavaClass.isEmpty_forgetMethodNames : (javaClass : JavaClass) →
    javaClass.forgetMethodNames.isEmpty = javaClass.isEmpty
  | ⟨name, isStatic, keepEmpty, comment, members⟩ => by
    rw [JavaClass.forgetMethodNames, JavaClass.isEmpty, JavaClass.isEmpty,
      Member.allEmpty_forgetAllMethodNames]

/-- The names of methods do not make members empty. -/
theorem Member.allEmpty_forgetAllMethodNames : (members : List Member) →
    Member.allEmpty (Member.forgetAllMethodNames members) = Member.allEmpty members
  | [] => rfl
  | member :: others => by
    rw [Member.forgetAllMethodNames, Member.allEmpty, Member.allEmpty,
      member.isEmpty_forgetMethodNames, Member.allEmpty_forgetAllMethodNames others]

end

/-! ## Layouts -/

section Layouts

variable (finalFields : Bool)

mutual

/-- A member is written without looking at the names of methods. -/
theorem Member.layout_forgetMethodNames : (member : Member) →
    member.forgetMethodNames.layout finalFields = member.layout finalFields
  | .method _ => rfl
  | .field _ => rfl
  | .array _ => rfl
  | .nested inner => inner.layout_forgetMethodNames

/-- A class is written without looking at the names of methods. -/
theorem JavaClass.layout_forgetMethodNames : (javaClass : JavaClass) →
    javaClass.forgetMethodNames.layout finalFields = javaClass.layout finalFields
  | ⟨name, isStatic, keepEmpty, comment, members⟩ => by
    rw [JavaClass.forgetMethodNames, JavaClass.layout, JavaClass.layout,
      Member.allEmpty_forgetAllMethodNames, Member.bodyLayout_forgetAllMethodNames]

/-- The members of a class are written without looking at the names of methods. -/
theorem Member.bodyLayout_forgetAllMethodNames : (members : List Member) →
    Member.bodyLayout finalFields (Member.forgetAllMethodNames members)
      = Member.bodyLayout finalFields members
  | [] => rfl
  | member :: others => by
    rw [Member.forgetAllMethodNames, Member.bodyLayout, Member.bodyLayout,
      member.layout_forgetMethodNames, Member.bodyLayout_forgetAllMethodNames others]

end

end Layouts

/-! ## Classes that differ in the names of methods -/

namespace JavaClass

/-- The class that is reached by going from a class to its member in a given place, and so on. -/
def descend : List Nat → JavaClass → Option JavaClass
  | [], javaClass => some javaClass
  | place :: places, javaClass =>
    match javaClass.members[place]? with
    | some (.nested inner) => descend places inner
    | _ => none

/-- The way to a class does not depend on the names of methods. -/
theorem descend_forgetMethodNames (places : List Nat) (javaClass : JavaClass) :
    descend places javaClass.forgetMethodNames
      = (descend places javaClass).map forgetMethodNames := by
  induction places generalizing javaClass with
  | nil => rfl
  | cons place places ih =>
      rw [descend, descend, members_forgetMethodNames, List.getElem?_map]
      cases javaClass.members[place]? with
      | none => rfl
      | some member =>
          cases member with
          | method | field | array => rfl
          | nested inner => exact ih inner

variable {first second : JavaClass}

/-- Classes that differ only in the names of methods are written by the same commands. -/
theorem layout_eq_of_forgetMethodNames_eq
    (h : first.forgetMethodNames = second.forgetMethodNames) (finalFields : Bool) :
    first.layout finalFields = second.layout finalFields := by
  rw [← first.layout_forgetMethodNames, h, second.layout_forgetMethodNames]

/-- Classes that differ only in the names of methods have classes in the same places, which are
empty or not alike. -/
theorem map_isEmpty_descend_eq (h : first.forgetMethodNames = second.forgetMethodNames)
    (places : List Nat) :
    (descend places first).map isEmpty = (descend places second).map isEmpty := by
  have hforget (javaClass : JavaClass) : (descend places javaClass).map isEmpty
      = (descend places javaClass.forgetMethodNames).map isEmpty := by
    rw [descend_forgetMethodNames, Option.map_map]
    exact congrArg (Option.map · _) (funext fun inner => inner.isEmpty_forgetMethodNames.symm)
  rw [hforget, h, ← hforget]

end JavaClass

end JavaResources
