import JavaResources.Proofs.Pen.Levels

/-!
# Indentation line by line

The ink of strokes cut into lines: `ink_eq_joined` says that a line nobody drew on is left blank and
that any other has the indentation of its first character, once and at its start. From it
`performAll_lines` tells what commands write on a sink that refuses nothing.
-/

namespace JavaResources

namespace Stroke

/-- The lines that strokes are drawn on: what stands between the ends of lines. -/
def lines (strokes : List Stroke) : List (List Stroke) :=
  strokes.splitOnP endsLine

/-- The characters of a line. -/
def chars (line : List Stroke) : List Char :=
  line.map Stroke.char

/-- The text of a line: nothing if there is no character on it, and otherwise its characters behind
the indentation that the level of the first one asks for. -/
def lineText (indentation : Indentation) : List Stroke → List Char
  | [] => []
  | first :: others => indentation.lead first.level ++ chars (first :: others)

/-- The text of the line that strokes start on, which need not owe its indentation. -/
def headText (indentation : Indentation) (owes : Bool) (line : List Stroke) : List Char :=
  if owes then lineText indentation line else chars line

/-- Strokes that start in the middle of a line, or on a new one, leave the text of their lines. -/
theorem ink_eq_headText (indentation : Indentation) (owes : Bool) (strokes : List Stroke) :
    ∃ first others, lines strokes = first :: others ∧
      ink indentation owes strokes
        = Text.joined '\n'
            (headText indentation owes first :: others.map (lineText indentation)) := by
  induction strokes generalizing owes with
  | nil => exact ⟨[], [], rfl, by cases owes <;> rfl⟩
  | cons stroke others ih =>
      -- A stroke either ends an empty line or joins the line that the others start on.
      by_cases hend : stroke.endsLine = true
      · obtain ⟨first, rest, hlines, hink⟩ := ih true
        refine ⟨[], first :: rest, ?_, ?_⟩
        · rw [← hlines]
          simp [lines, List.splitOnP_cons_eq_if_modifyHead, hend]
        · have hhead : headText indentation owes [] = [] := by cases owes <;> rfl
          rw [ink, if_pos hend, hink, hhead, Text.joined_nil_cons _ (by simp)]
          rfl
      · obtain ⟨first, rest, hlines, hink⟩ := ih false
        refine ⟨stroke :: first, rest, ?_, ?_⟩
        · rw [lines] at hlines
          simp [lines, List.splitOnP_cons_eq_if_modifyHead, hend, hlines]
        · have hhead : headText indentation owes (stroke :: first)
              = ((if owes then indentation.lead stroke.level else []) ++ [stroke.char])
                ++ headText indentation false first := by
            cases owes <;> simp [headText, lineText, chars]
          rw [ink, if_neg hend, hink, hhead, Text.joined_append_cons, List.append_assoc]
          rfl

/-- Strokes that start on a new line leave the text of their lines. -/
theorem ink_eq_joined (indentation : Indentation) (strokes : List Stroke) :
    ink indentation true strokes
      = Text.joined '\n' ((lines strokes).map (lineText indentation)) := by
  obtain ⟨first, others, hlines, hink⟩ := ink_eq_headText indentation true strokes
  rw [hink, hlines]
  rfl

end Stroke

namespace Pen

/-- A new pen on a sink that refuses nothing carries out any commands that never leave level zero.
It writes the lines that their characters fall on, each line with the indentation of its first
character and a line without characters as nothing at all. -/
theorem performAll_lines (indentation : Indentation) (commands : List Command) (sink : Sink)
    (hsink : sink.Unlimited) (hlevels : Command.Permitted 0 commands) :
    (performAll commands { indentation, sink }).fault = none ∧
      (performAll commands { indentation, sink }).state.sink.written.toList
        = sink.written.toList ++ Text.encode (Text.joined '\n'
            ((Stroke.lines (Command.strokesAll 0 commands)).map
              (Stroke.lineText indentation))) := by
  have hwrote : Wrote sink _ (performAll commands { indentation, sink }) :=
    performAll_wrote hlevels
  rw [← Stroke.ink_eq_joined]
  exact hwrote.of_unlimited hsink

/-- Levels change within a line and between lines, and two lines stay blank. -/
theorem performAll_lines_mixed :
    Sink.Unlimited { chunk := some 1, interrupts := true } ∧
      Command.Permitted 0 [.enter, .put "a\n\nb", .enter, .put "", .putLine "c", .leave, .endLine,
        .put "d\n", .leave, .put "e"] ∧
      (performAll [.enter, .put "a\n\nb", .enter, .put "", .putLine "c", .leave, .endLine,
        .put "d\n", .leave, .put "e"]
          { sink := { chunk := some 1, interrupts := true } }).state.sink.written.toList
        = Text.encode "  a\n\n  bc\n\n  d\ne".toList := by
  have hsink : Sink.Unlimited { chunk := some 1, interrupts := true } := rfl
  have hlevels : Command.Permitted 0 [.enter, .put "a\n\nb", .enter, .put "", .putLine "c",
      .leave, .endLine, .put "d\n", .leave, .put "e"] := by decide
  refine ⟨hsink, hlevels, (performAll_lines .java _ _ hsink hlevels).2.trans ?_⟩
  decide

end Pen

end JavaResources
