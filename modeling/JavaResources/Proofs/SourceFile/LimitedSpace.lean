import JavaResources.Proofs.Layout.Closed
import JavaResources.SourceFile

/-!
# Writing on a sink without enough space

What a file or a member writes does not depend on the sink, which only decides how much of it
arrives. `write_cutAt` says that a sink with limited space has exactly the first bytes, as many as
there is space for, and that its own error comes back exactly if that is not all of them. The error
may strike anywhere: within a character, an indentation or a line end, at any depth of the class.
-/

namespace JavaResources

/-- The outcome of writing bytes behind others where there is space for a limited number: the first
of them have arrived, as many as fit, and there is an error if that is not all of them. -/
structure Pen.CutAt (before bytes : List UInt8) (limit : Nat) (error : IoError)
    (outcome : Outcome Pen.Fault Pen) : Prop where
  written : outcome.state.sink.written.toList = before ++ bytes.take (min limit bytes.length)
  fault : outcome.fault = if bytes.length ≤ limit then none else some (.sink error)

/-- A sink with limited space takes of a text what there is space for. -/
theorem Pen.Wrote.cutAt {sink : Sink} {text : List Char} {outcome : Outcome Pen.Fault Pen}
    (h : Pen.Wrote sink text outcome) {limit : Nat} (hspace : sink.space = some limit)
    (hchunk : sink.chunk ≠ some 0) :
    Pen.CutAt sink.written.toList (Text.encode text) limit sink.refusal.error outcome := by
  have hintake (offered : Nat) : sink.intake offered = min limit offered := by
    rw [Sink.intake, Sink.capacity, if_neg hchunk, hspace]
    rfl
  refine ⟨?_, ?_⟩
  · rw [h.sink_eq, Sink.written_writeAll, hintake]
  · rw [h.fault_eq, Sink.fault_writeAll, hintake]
    by_cases hfits : (Text.encode text).length ≤ limit
    · rw [if_pos hfits, if_pos (Nat.min_eq_right hfits)]
      rfl
    · rw [if_neg hfits, if_neg (by omega)]
      rfl

/-- Closed commands write the same text on all sinks, and all of it where nothing is refused. -/
theorem Pen.performAll_cutAt {commands : List Command} (h : Command.Closed commands) (pen : Pen)
    {limit : Nat} (hspace : pen.sink.space = some limit) (hchunk : pen.sink.chunk ≠ some 0) :
    (Pen.performAll commands { pen with sink := {} }).fault = none ∧
      Pen.CutAt pen.sink.written.toList
        (Pen.performAll commands { pen with sink := {} }).state.sink.written.toList
        limit pen.sink.refusal.error (Pen.performAll commands pen) := by
  have hpermitted := h.permitted_at pen.level
  have hwrote := Pen.performAll_wrote hpermitted
  have hfree : Pen.Wrote {} _ (Pen.performAll commands { pen with sink := {} }) :=
    Pen.performAll_wrote hpermitted
  obtain ⟨hfault, hwritten⟩ := hfree.of_unlimited rfl
  rw [hwritten]
  exact ⟨hfault, hwrote.cutAt hspace hchunk⟩

/-- A source file is written at the level it starts from. -/
theorem SourceFile.layout_closed (file : SourceFile) : Command.Closed file.layout := by
  have hpreamble : Command.Closed (preambleLayout file.package) := .of_writesText rfl
  exact hpreamble.append (file.root.layout_closed file.style.finalFields)

/-- Files and members, the latter with any pen, reach a sink with limited space as the first bytes
of what they write on one that refuses nothing. There is a fault exactly if that is not all of it,
and then it is the sink's own error. How many bytes the sink takes in a call and which calls it
interrupts make no difference. -/
theorem write_cutAt (sink : Sink) (limit : Nat) (hspace : sink.space = some limit)
    (hchunk : sink.chunk ≠ some 0) :
    (∀ file : SourceFile,
      (file.write {}).fault = none ∧
        Pen.CutAt sink.written.toList (file.write {}).state.sink.written.toList
          limit sink.refusal.error (file.write sink)) ∧
    (∀ (member : Member) (finalFields : Bool) (pen : Pen),
      (member.write finalFields { pen with sink := {} }).fault = none ∧
        Pen.CutAt sink.written.toList
          (member.write finalFields { pen with sink := {} }).state.sink.written.toList
          limit sink.refusal.error (member.write finalFields { pen with sink })) := by
  constructor
  · intro file
    simpa only [SourceFile.write] using Pen.performAll_cutAt file.layout_closed
      { indentation := file.style.indentation, sink } hspace hchunk
  · intro member finalFields pen
    simpa only [Member.write] using Pen.performAll_cutAt (member.layout_closed finalFields)
      { pen with sink } hspace hchunk

/-- There is space for the first byte of a character of two, and the sink claims to have taken none
of the second. -/
theorem write_cutAt_within_character :
    (27 : Nat) < (Text.encode "  public static String e=\"\u00e9\";".toList).length ∧
      (some 2 : Option Nat) ≠ some 0 ∧
      (Member.write (.field ⟨"e", .string "\u00e9", {}⟩) false
        { level := 1, sink := { space := some 27, chunk := some 2, interrupts := true,
                                refusal := .takeNothing } }).state.sink.written.toList
        = (Text.encode "  public static String e=\"\u00e9\";".toList).take 27 ∧
      (Member.write (.field ⟨"e", .string "\u00e9", {}⟩) false
        { level := 1, sink := { space := some 27, chunk := some 2, interrupts := true,
                                refusal := .takeNothing } }).fault
        = some (.sink .writeZero) := by
  have hchunk : (some 2 : Option Nat) ≠ some 0 := by decide
  have hmember := (write_cutAt { space := some 27, chunk := some 2, interrupts := true,
                                 refusal := .takeNothing } 27 rfl hchunk).2
    (.field ⟨"e", .string "\u00e9", {}⟩) false { level := 1 }
  refine ⟨by decide, hchunk, hmember.2.written.trans ?_, hmember.2.fault.trans ?_⟩
  · decide +kernel
  · decide +kernel

end JavaResources
