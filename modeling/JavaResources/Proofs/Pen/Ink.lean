import JavaResources.Proofs.Pen.Stroke

/-!
# The text that strokes leave behind

`Stroke.ink` is the text of strokes with the indentation of their lines. It depends on the unit of
indentation and on whether some is owed at first, and on no sink. `drawAll_wrote` says that it is
what a pen writes on any sink, as far as the sink takes it.
-/

namespace JavaResources

namespace Stroke

/-- The text that strokes leave behind, where `owes` says whether the line they start on still owes
its indentation. The indentation of a line is that of its first character. -/
def ink (indentation : Indentation) : Bool → List Stroke → List Char
  | _, [] => []
  | owes, stroke :: others =>
    if stroke.endsLine then '\n' :: ink indentation true others
    else
      (if owes then indentation.lead stroke.level else [])
        ++ stroke.char :: ink indentation false others

/-- Whether indentation is owed after strokes, if it was or was not owed before them. -/
def owesAfter (owes : Bool) (strokes : List Stroke) : Bool :=
  strokes.foldl (fun _ stroke => stroke.endsLine) owes

/-- Strokes that follow others decide whether indentation is owed after them. -/
theorem owesAfter_append (owes : Bool) (first second : List Stroke) :
    owesAfter owes (first ++ second) = owesAfter (owesAfter owes first) second :=
  List.foldl_append

/-- The ink of strokes one after the other. -/
theorem ink_append (indentation : Indentation) (owes : Bool) (first second : List Stroke) :
    ink indentation owes (first ++ second)
      = ink indentation owes first ++ ink indentation (owesAfter owes first) second := by
  induction first generalizing owes with
  | nil => rfl
  | cons stroke others ih =>
      have hafter : owesAfter owes (stroke :: others) = owesAfter stroke.endsLine others := rfl
      rw [hafter, List.cons_append, ink, ink]
      split
      · next hend => rw [hend, ih, List.cons_append]
      · next hend =>
          rw [Bool.not_eq_true] at hend
          rw [hend, ih, List.append_assoc, List.cons_append]

end Stroke

namespace Pen

/-- The outcome of writing a text on a sink: the sink has the text as far as it takes it, and a
fault tells of what it refuses. -/
def Wrote (sink : Sink) (text : List Char) (outcome : Outcome Fault Pen) : Prop :=
  outcome.lift Pen.sink id = (sink.writeAll (Text.encode text)).lift id Fault.sink

namespace Wrote

variable {sink : Sink} {text more : List Char} {outcome : Outcome Fault Pen}

/-- The sink is left as if it had been handed the text. -/
theorem sink_eq (h : Wrote sink text outcome) :
    outcome.state.sink = (sink.writeAll (Text.encode text)).state :=
  congrArg Outcome.state h

/-- The only fault is what the sink refuses. -/
theorem fault_eq (h : Wrote sink text outcome) :
    outcome.fault = (sink.writeAll (Text.encode text)).fault.map Fault.sink := by
  simpa [Outcome.lift] using congrArg Outcome.fault h

/-- A step that writes nothing. -/
theorem of_done (pen : Pen) : Wrote pen.sink [] (.done pen) := by
  rw [Wrote, Text.encode, List.flatMap_nil, Sink.writeAll, if_pos rfl]
  rfl

/-- What two steps write is the text of the first and then that of the second. -/
theorem andThen (h : Wrote sink text outcome) {next : Pen → Outcome Fault Pen}
    (hnext : outcome.fault = none → Wrote outcome.state.sink more (next outcome.state)) :
    Wrote sink (text ++ more) (outcome.andThen next) := by
  have hsink := h.sink_eq
  have hfault := h.fault_eq
  rw [Wrote, Text.encode_append, Sink.writeAll_append]
  generalize sink.writeAll (Text.encode text) = taken at hsink hfault
  obtain ⟨pen, fault⟩ := outcome
  -- Either both sides go on with the second text, or both have stopped at the same error.
  obtain ⟨after, _ | error⟩ := taken
  · obtain rfl : fault = none := hfault
    obtain rfl : pen.sink = after := hsink
    exact hnext rfl
  · obtain rfl : fault = some (.sink error) := hfault
    obtain rfl : pen.sink = after := hsink
    rfl

/-- Changing what is not the sink is no matter. -/
theorem andThen_done (h : Wrote sink text outcome) (change : Pen → Pen)
    (hchange : ∀ pen, (change pen).sink = pen.sink) :
    Wrote sink text (outcome.andThen fun pen => .done (change pen)) := by
  rw [← List.append_nil text]
  exact h.andThen fun _ => hchange outcome.state ▸ of_done (change outcome.state)

/-- A step that was not stopped has written everything. -/
theorem written_of_done (h : Wrote sink text outcome) (hdone : outcome.fault = none) :
    outcome.state.sink.written.toList = sink.written.toList ++ Text.encode text := by
  have htaken : sink.intake (Text.encode text).length = (Text.encode text).length := by
    by_contra hne
    rw [h.fault_eq, Sink.fault_writeAll, if_neg hne] at hdone
    exact Option.some_ne_none _ hdone
  rw [h.sink_eq, Sink.written_writeAll, htaken, List.take_length]

/-- A step that was stopped has written less than it had to write. -/
theorem exists_of_fault (h : Wrote sink text outcome) (hfault : outcome.fault ≠ none) :
    ∃ own, own <+: Text.encode text ∧ own.length < (Text.encode text).length ∧
      outcome.state.sink.written.toList = sink.written.toList ++ own := by
  refine ⟨(Text.encode text).take (sink.intake (Text.encode text).length), List.take_prefix _ _,
    ?_, ?_⟩
  · have hle := sink.intake_le (Text.encode text).length
    have hne : sink.intake (Text.encode text).length ≠ (Text.encode text).length := by
      intro htaken
      rw [h.fault_eq, Sink.fault_writeAll, if_pos htaken] at hfault
      exact hfault rfl
    rw [List.length_take]
    omega
  · rw [h.sink_eq, Sink.written_writeAll]

/-- A sink that refuses nothing has the whole text behind what it had. -/
theorem of_unlimited (h : Wrote sink text outcome) (hsink : sink.Unlimited) :
    outcome.fault = none ∧
      outcome.state.sink.written.toList = sink.written.toList ++ Text.encode text := by
  have htaken := Sink.intake_of_unlimited hsink (Text.encode text).length
  rw [h.fault_eq, h.sink_eq, Sink.fault_writeAll, Sink.written_writeAll, if_pos htaken, htaken,
    List.take_length]
  exact ⟨rfl, rfl⟩

end Wrote

/-- A write on the sink. -/
theorem write_wrote (pen : Pen) (text : List Char) : Wrote pen.sink text (pen.write text) := by
  rw [Wrote, write_eq]
  obtain ⟨sink, _ | error⟩ := pen.sink.writeAll (Text.encode text) <;> rfl

/-- A stroke leaves its ink. -/
theorem draw_wrote (pen : Pen) (stroke : Stroke) :
    Wrote pen.sink (Stroke.ink pen.indentation pen.owesIndent [stroke]) (pen.draw stroke) := by
  rw [draw, Stroke.ink]
  split
  · have hended := write_wrote (pen.atLevel stroke.level) ['\n']
    exact hended.andThen_done (fun ended => { ended with owesIndent := true }) fun _ => rfl
  · rw [payIndent_eq]
    have hpaid := write_wrote (pen.atLevel stroke.level)
      (if pen.owesIndent then pen.indentation.lead stroke.level else [])
    have hpaid := hpaid.andThen_done (fun paid => { paid with owesIndent := false }) fun _ => rfl
    exact hpaid.andThen fun _ => write_wrote _ [stroke.char]

/-- Strokes leave their ink on the sink of the pen. -/
theorem drawAll_wrote (strokes : List Stroke) (pen : Pen) :
    Wrote pen.sink (Stroke.ink pen.indentation pen.owesIndent strokes) (drawAll strokes pen) := by
  induction strokes generalizing pen with
  | nil => exact .of_done pen
  | cons stroke others ih =>
      rw [← List.singleton_append, Stroke.ink_append]
      -- What the other strokes leave depends only on whether the first one ended its line.
      refine (draw_wrote pen stroke).andThen fun hdrawn => ?_
      have hothers := ih (pen.draw stroke).state
      rw [state_draw hdrawn] at hothers
      exact state_draw hdrawn ▸ hothers

end Pen

end JavaResources
