import JavaResources.Proofs.Layout.Closed
import JavaResources.Proofs.Pen.Stopping

/-!
# How deep members go

Writing a member enters levels and leaves them again. `Member.depth` is how many levels it may be
deep in at a time, by recursion on the member. `Member.write_level` says that a pen that writes a
member is never at a lower level than at the start nor by more than the depth at a higher one, that
it is back in the end, and that an error leaves it at the level of the first byte that is missing.
-/

namespace JavaResources

open Command

mutual

/-- How many levels a member goes deeper than the one it starts at. -/
def Member.depth : Member → Nat
  | .method _ => 1
  | .field _ => 0
  | .array _ => 1
  | .nested inner => inner.depth

/-- A class goes one level deeper than the deepest of its members. -/
def JavaClass.depth : JavaClass → Nat
  | ⟨_, _, _, _, members⟩ => 1 + Member.maxDepth members

/-- The depth of the deepest member, if there is any. -/
def Member.maxDepth : List Member → Nat
  | [] => 0
  | member :: others => max member.depth (Member.maxDepth others)

end

/-- A method reaches the level of its statements. -/
theorem Method.peak_layout (method : Method) : peak 0 method.layout = 1 := by
  have hbody := method.writesText_statements
  rw [method.layout_eq_scope, peak_scope rfl (.of_writesText hbody) rfl, peak_of_writesText hbody]

/-- An array reaches the level of its rows. -/
theorem ResourceArray.peak_layout (array : ResourceArray) : peak 0 array.layout = 1 := by
  have hbody := array.writesText_body
  rw [array.layout_eq_scope, peak_scope array.writesText_head (.of_writesText hbody) rfl,
    peak_of_writesText hbody]

mutual

/-- The layout of a member stays within its depth. -/
theorem Member.peak_layout_le (finalFields : Bool) :
    (member : Member) → peak 0 (member.layout finalFields) ≤ member.depth
  | .method declared => Nat.le_of_eq declared.peak_layout
  | .field declared =>
    Nat.le_of_eq (peak_of_writesText (declared.writesText_layout finalFields) 0)
  | .array declared => Nat.le_of_eq declared.peak_layout
  | .nested inner => inner.peak_layout_le finalFields

/-- The layout of a class stays within its depth. An empty class does not even use it. -/
theorem JavaClass.peak_layout_le (finalFields : Bool) :
    (javaClass : JavaClass) → peak 0 (javaClass.layout finalFields) ≤ javaClass.depth
  | ⟨name, isStatic, keepEmpty, comment, members⟩ => by
    have hbody := Member.peak_bodyLayout_le finalFields members
    have hclosed := Member.bodyLayout_closed finalFields members
    rw [JavaClass.layout, JavaClass.depth]
    split
    · exact Nat.zero_le _
    · rw [peak_scope (JavaClass.writesText_head comment name isStatic) hclosed rfl]
      exact Nat.add_le_add_left hbody 1

/-- The layout of a body stays within the depth of the deepest member. -/
theorem Member.peak_bodyLayout_le (finalFields : Bool) :
    (members : List Member) →
      peak 0 (Member.bodyLayout finalFields members) ≤ Member.maxDepth members
  | [] => Nat.le_refl 0
  | member :: others => by
    have hmember := member.peak_layout_le finalFields
    have hothers := Member.peak_bodyLayout_le finalFields others
    have hclosed := member.layout_closed finalFields
    have hend : peak 0 (.endLine :: Member.bodyLayout finalFields others)
        = peak 0 (Member.bodyLayout finalFields others) := Nat.zero_max _
    rw [Member.bodyLayout, Member.maxDepth, peak_append, hclosed.level, hend]
    exact Nat.max_le.2 ⟨Nat.le_trans hmember (Nat.le_max_left _ _),
      Nat.le_trans hothers (Nat.le_max_right _ _)⟩

end

/-- Writing any member keeps to its levels, on any sink. At no time does it leave a level that was
not entered, is below the level it started at or above that by more than the depth of the member. If
all is written, it is back at that level. If it stops, the level is the one at which the next byte
is written on a sink that refuses nothing. -/
theorem Member.write_level (member : Member) (finalFields : Bool) (pen : Pen) :
    (∀ begun, begun <+: member.layout finalFields →
      (Pen.performAll begun pen).fault ≠ some .notEntered ∧
        pen.level ≤ (Pen.performAll begun pen).state.level ∧
        (Pen.performAll begun pen).state.level ≤ pen.level + member.depth) ∧
    ((member.write finalFields pen).fault = none →
      (member.write finalFields pen).state.level = pen.level) ∧
    ((member.write finalFields pen).fault ≠ none →
      ∃ own, (member.write finalFields pen).state.sink.written.toList
          = pen.sink.written.toList ++ own ∧
        Pen.levelWriting? own.length (member.layout finalFields) { pen with sink := {} }
          = some (member.write finalFields pen).state.level) := by
  have hclosed := member.layout_closed finalFields
  have hpermitted := hclosed.permitted_at pen.level
  refine ⟨?_, ?_, ?_⟩
  · intro begun hbegun
    refine ⟨Pen.fault_performAll_ne (hpermitted.of_prefix hbegun), ?_⟩
    obtain ⟨done, hdone, hlevel⟩ := Pen.level_performAll begun pen
    -- What was carried out reaches a level above the start just as it does from level zero.
    have hdeeper : levelAfterAll pen.level done = levelAfterAll 0 done + pen.level := by
      have hdone := hclosed.permitted.of_prefix (hdone.trans hbegun)
      simpa using (hdone.deepen pen.level).2.1
    have hpeak := levelAfterAll_le_peak 0 (hdone.trans hbegun)
    have hdepth := member.peak_layout_le finalFields
    omega
  · intro hfault
    exact (Pen.level_performAll_of_done hpermitted hfault).trans
      (hclosed.levelAfterAll_eq pen.level)
  · intro hfault
    obtain ⟨own, hown, hlevel⟩ :=
      Pen.levelWriting?_of_fault hpermitted hfault (show Sink.Unlimited {} from rfl)
    have hposition : ({} : Sink).written.size + own.length = own.length := Nat.zero_add _
    rw [hposition] at hlevel
    exact ⟨own, hown, hlevel⟩

/-- There is no space for the first character of a statement, two classes and a method deep. -/
theorem Member.write_level_statement :
    let member : Member := .nested ⟨"A", false, false, {}, [.nested ⟨"B", true, false, {},
      [.method ⟨"m", "m()", ["x;"]⟩]⟩]⟩
    let outcome := member.write true { level := 1, sink := { space := some 79, chunk := some 7 } }
    outcome.fault ≠ none ∧ outcome.state.level = 4 ∧
      Pen.levelWriting? outcome.state.sink.written.size (member.layout true) { level := 1 }
        = some 4 := by
  intro member outcome
  have hfault : outcome.fault ≠ none := by decide +kernel
  have hlevel : outcome.state.level = 4 := by decide +kernel
  obtain ⟨own, hown, hwriting⟩ := (member.write_level true
    { level := 1, sink := { space := some 79, chunk := some 7 } }).2.2 hfault
  have hsize : outcome.state.sink.written.size = own.length := congrArg List.length hown
  rw [hsize, ← hlevel]
  exact ⟨hfault, rfl, hwriting⟩

end JavaResources
