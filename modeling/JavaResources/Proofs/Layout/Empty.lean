import JavaResources.Proofs.JavaClass.Latest
import JavaResources.Proofs.Layout.Closed

/-!
# Empty members

`Member.isEmpty` looks at a tree of classes, and writing one goes through the tree again.
`Member.isEmpty_iff_write` says that the two agree: an empty member is exactly one that writes
nothing, and exactly one from which only classes can be reached that may be left out. Comments and
annotations count for nothing, and neither do members that were overridden.
-/

namespace JavaResources

/-! ## Reachable members -/

/-- The members that are reached from a member: itself and those that are reached from the members
of a class. -/
inductive Member.Reaches : Member → Member → Prop where
  | refl (member : Member) : member.Reaches member
  | nested {inner : JavaClass} {member other : Member} (hmember : member ∈ inner.members)
      (hother : member.Reaches other) : Member.Reaches (.nested inner) other

namespace Member

variable {P : Member → Prop}

/-- From a method nothing but itself is reached. -/
theorem forall_reaches_method {declared : Method} :
    (∀ other, (Member.method declared).Reaches other → P other) ↔ P (.method declared) := by
  refine ⟨fun h => h _ (.refl _), fun h other hother => ?_⟩
  cases hother
  exact h

/-- From a field nothing but itself is reached. -/
theorem forall_reaches_field {declared : Field} :
    (∀ other, (Member.field declared).Reaches other → P other) ↔ P (.field declared) := by
  refine ⟨fun h => h _ (.refl _), fun h other hother => ?_⟩
  cases hother
  exact h

/-- From an array nothing but itself is reached. -/
theorem forall_reaches_array {declared : ResourceArray} :
    (∀ other, (Member.array declared).Reaches other → P other) ↔ P (.array declared) := by
  refine ⟨fun h => h _ (.refl _), fun h other hother => ?_⟩
  cases hother
  exact h

/-- From a class are reached the class and what is reached from its members. -/
theorem forall_reaches_nested {inner : JavaClass} :
    (∀ other, (Member.nested inner).Reaches other → P other) ↔
      P (.nested inner) ∧ ∀ member ∈ inner.members, ∀ other, member.Reaches other → P other := by
  refine ⟨fun h => ⟨h _ (.refl _), fun member hmember other hother =>
    h other (.nested hmember hother)⟩, fun ⟨hself, hmembers⟩ other hother => ?_⟩
  cases hother with
  | refl => exact hself
  | nested hmember hother => exact hmembers _ hmember other hother

end Member

/-- Only a class may be left out, and only if it is not to be kept when empty. -/
def Member.omissible : Member → Bool
  | .nested inner => !inner.keepEmpty
  | .method _ | .field _ | .array _ => false

/-- An empty member may be left out. -/
theorem Member.omissible_of_isEmpty {member : Member} (h : member.isEmpty = true) :
    member.omissible = true := by
  cases member with
  | method | field | array => exact nomatch h
  | nested inner =>
      rw [isEmpty, inner.isEmpty_eq, Bool.and_eq_true] at h
      exact h.1

/-- What is reached from an empty member is empty. -/
theorem Member.Reaches.isEmpty {member other : Member} (h : member.Reaches other)
    (hempty : member.isEmpty = true) : other.isEmpty = true := by
  induction h with
  | refl => exact hempty
  | @nested inner member other hmember _ ih =>
      rw [Member.isEmpty, inner.isEmpty_eq, Bool.and_eq_true] at hempty
      exact ih (List.all_eq_true.1 hempty.2 member hmember)

mutual

/-- A member is empty if all that is reached from it may be left out. -/
theorem Member.isEmpty_of_reaches : (member : Member) →
    (∀ other, member.Reaches other → other.omissible = true) → member.isEmpty = true
  | .method declared, h => h _ (.refl (.method declared))
  | .field declared, h => h _ (.refl (.field declared))
  | .array declared, h => h _ (.refl (.array declared))
  | .nested inner, h => inner.isEmpty_of_reaches h

/-- A class is empty if it and all that is reached from it may be left out. -/
theorem JavaClass.isEmpty_of_reaches : (javaClass : JavaClass) →
    (∀ other, (Member.nested javaClass).Reaches other → other.omissible = true) →
      javaClass.isEmpty = true
  | ⟨name, isStatic, keepEmpty, comment, members⟩, h => by
    have hself := h _ (.refl _)
    have hmembers := Member.allEmpty_of_reaches members fun member hmember other hother =>
      h other (.nested hmember hother)
    rw [JavaClass.isEmpty, hmembers, Bool.and_true]
    exact hself

/-- Members are empty if all that is reached from them may be left out. -/
theorem Member.allEmpty_of_reaches : (members : List Member) →
    (∀ member ∈ members, ∀ other, member.Reaches other → other.omissible = true) →
      Member.allEmpty members = true
  | [], _ => rfl
  | member :: others, h => by
    have hmember := member.isEmpty_of_reaches (h member List.mem_cons_self)
    have hothers := Member.allEmpty_of_reaches others fun other hother =>
      h other (List.mem_cons_of_mem member hother)
    rw [Member.allEmpty, hmember, hothers]
    rfl

end

/-- A member is empty exactly if all that is reached from it may be left out. -/
theorem Member.isEmpty_iff_reaches (member : Member) :
    member.isEmpty = true ↔ ∀ other, member.Reaches other → other.omissible = true :=
  ⟨fun h _ hother => omissible_of_isEmpty (hother.isEmpty h), member.isEmpty_of_reaches⟩

/-! ## What is written -/

/-- No character is written as no bytes at all. -/
theorem Text.encode_eq_nil {text : List Char} : encode text = [] ↔ text = [] := by
  cases text with
  | nil => exact ⟨fun _ => rfl, fun _ => rfl⟩
  | cons c rest =>
      have hfirst : String.utf8EncodeChar c ≠ [] := by
        intro hnil
        have hsize := congrArg List.length hnil
        rw [String.length_utf8EncodeChar] at hsize
        exact Nat.ne_of_gt c.utf8Size_pos hsize
      simp [encode, hfirst]

/-- Strokes leave no ink only if there are none. -/
theorem Stroke.ink_eq_nil {indentation : Indentation} {owes : Bool} {strokes : List Stroke} :
    ink indentation owes strokes = [] ↔ strokes = [] := by
  cases strokes with
  | nil => exact ⟨fun _ => rfl, fun _ => rfl⟩
  | cons stroke others =>
      rw [ink]
      split <;> simp

/-- The characters of strokes are the texts of the commands. -/
theorem Command.chars_strokesAll (level : Nat) (commands : List Command) :
    (strokesAll level commands).map Stroke.char = commands.flatMap text := by
  induction commands generalizing level with
  | nil => rfl
  | cons command others ih =>
      rw [strokesAll, List.map_append, ih, List.flatMap_cons]
      congr 1
      simp [Stroke.ofText, Function.comp_def]

/-- An empty member is written by no commands. -/
theorem Member.layout_of_isEmpty (finalFields : Bool) {member : Member}
    (h : member.isEmpty = true) : member.layout finalFields = [] := by
  cases member with
  | method | field | array => exact nomatch h
  | nested inner =>
      rw [isEmpty] at h
      rw [layout, inner.layout_eq, if_pos h]

/-- The commands of a member that is not empty write some text. -/
theorem Member.exists_text_of_not_isEmpty (finalFields : Bool) {member : Member}
    (h : ¬ member.isEmpty = true) :
    ∃ command ∈ member.layout finalFields, command.text ≠ [] := by
  cases member with
  | method declared => exact ⟨.put "\x7d", by simp [layout, Method.layout], by decide⟩
  | field declared => exact ⟨.put "public static ", by simp [layout, Field.layout], by decide⟩
  | array declared => exact ⟨.put "\x7d;", by simp [layout, ResourceArray.layout], by decide⟩
  | nested inner =>
      rw [isEmpty] at h
      refine ⟨.put "\x7d", ?_, by decide⟩
      rw [layout, inner.layout_eq, if_neg h]
      simp

/-- The commands of a member write no text exactly if it is empty. -/
theorem Member.text_layout_eq_nil (finalFields : Bool) (member : Member) :
    (member.layout finalFields).flatMap Command.text = [] ↔ member.isEmpty = true := by
  constructor
  · intro htext
    by_contra h
    obtain ⟨command, hcommand, hne⟩ := exists_text_of_not_isEmpty finalFields h
    exact hne (List.flatMap_eq_nil_iff.1 htext command hcommand)
  · intro h
    rw [layout_of_isEmpty finalFields h]
    rfl

/-- Emptiness is what it looks like on a sink that refuses nothing. A member is empty exactly if
writing it leaves the sink as it was; then it leaves the pen as it was too, without a fault. It is
empty exactly if it is a class and all that is reached from it, itself included, are classes that
need not be kept. A member that was overridden leaves no trace in a class, so it has no part in
either. -/
theorem Member.isEmpty_iff_write (member : Member) (finalFields : Bool) (pen : Pen)
    (hsink : pen.sink.Unlimited) :
    (member.isEmpty = true
      ↔ (member.write finalFields pen).state.sink.written = pen.sink.written) ∧
    (member.isEmpty = true → member.write finalFields pen = .done pen) ∧
    (member.isEmpty = true ↔ ∀ other, member.Reaches other → other.omissible = true) ∧
    ∀ (name : String) (isStatic keepEmpty : Bool) (comment : DocComment)
      (before : List Member) (overridden : Member) (after : List Member),
      (∃ later ∈ after, later.name = overridden.name) →
        JavaClass.addAll ⟨name, isStatic, keepEmpty, comment, []⟩ (before ++ overridden :: after)
          = JavaClass.addAll ⟨name, isStatic, keepEmpty, comment, []⟩ (before ++ after) := by
  refine ⟨?_, ?_, member.isEmpty_iff_reaches, ?_⟩
  · have hclosed := member.layout_closed finalFields
    have hwrote := Pen.performAll_wrote (hclosed.permitted_at pen.level)
    have hwritten := (hwrote.of_unlimited hsink).2
    rw [← Array.toList_inj, write, hwritten, List.append_right_eq_self, Text.encode_eq_nil,
      Stroke.ink_eq_nil, ← List.map_eq_nil_iff, Command.chars_strokesAll,
      member.text_layout_eq_nil finalFields]
  · intro h
    rw [write, layout_of_isEmpty finalFields h]
    rfl
  · intro name isStatic keepEmpty comment before overridden after hlater
    rw [JavaClass.addAll_eq, JavaClass.addAll_eq, JavaClass.latest_of_overridden hlater]

/-- A class with a comment, in which an empty class has taken the place of a method, is empty in the
middle of a line too. -/
theorem Member.isEmpty_iff_write_commented :
    let inner : Member := .nested ⟨"m", true, false, { lines := ["x"] }, []⟩
    let member : Member := .nested (JavaClass.addAll
      ⟨"A", false, false, { lines := ["y"], annotations := { deprecated := true } }, []⟩
      [.method ⟨"m", "m()", []⟩, inner])
    let pen : Pen := { level := 2, owesIndent := false, sink := { chunk := some 1 } }
    Sink.Unlimited { chunk := some 1 } ∧ member.isEmpty = true ∧
      member.write true pen = .done pen ∧
        ∀ other, member.Reaches other → other.omissible = true := by
  intro inner member pen
  have hsink : Sink.Unlimited { chunk := some 1 } := rfl
  have hempty : member.isEmpty = true := by decide
  obtain ⟨-, hwrite, hreaches, -⟩ := member.isEmpty_iff_write true pen hsink
  exact ⟨hsink, hempty, hwrite hempty, hreaches.1 hempty⟩

end JavaResources
