import JavaResources.Proofs.Pen.Levels

/-!
# Text in fragments

A text may be handed to a pen in one piece or cut into fragments anywhere, within a line or beside
its end. `performAll_of_writesText` says that commands that only write text do what one command with
their whole text does. Not only the sink ends up the same: the level, the indentation that is owed,
the space that is left and the error do too, wherever the sink refuses.
-/

namespace JavaResources.Pen

/-- Commands that only write text write it like one text. -/
theorem performAll_of_writesText {commands : List Command}
    (h : commands.all Command.writesText = true) (pen : Pen) :
    performAll commands pen = pen.put (String.ofList (commands.flatMap Command.text)) := by
  have hclosed := Command.Closed.of_writesText h
  calc performAll commands pen
    _ = (drawAll (Stroke.ofText pen.level (commands.flatMap Command.text)) pen).andThen fun drawn =>
        .done (drawn.atLevel pen.level) := by
      rw [performAll_eq (hclosed.permitted_at pen.level), Command.strokesAll_of_writesText h,
        hclosed.levelAfterAll_eq]
    _ = drawAll (Stroke.ofText pen.level (commands.flatMap Command.text)) pen :=
      (drawAll_ofText _ pen).symm
    _ = pen.put (String.ofList (commands.flatMap Command.text)) := by
      rw [put_eq, String.toList_ofList]

/-- Any pen on any sink writes a text and then another one just as it writes both as one text, and a
text with its line end just as the text with a line feed behind it. The pens that are left behind
are equal in every part, so what they are told next, with more space or without, ends alike. -/
theorem put_fragments (pen : Pen) (first second : String) :
    pen.put (first ++ second) = (pen.put first).andThen (·.put second) ∧
      pen.putLine first = pen.put (first ++ "\n") := by
  constructor
  · have hfragments : performAll [.put first, .put second] pen = pen.put (String.ofList _) :=
      performAll_of_writesText rfl pen
    have htext : String.ofList ([Command.put first, .put second].flatMap Command.text)
        = first ++ second := by
      simp [Command.text, ← String.toList_append]
    rw [htext] at hfragments
    rw [← hfragments]
    show (pen.put first).andThen (fun following => (following.put second).andThen .done) = _
    exact Outcome.andThen_congr fun _ => Outcome.andThen_done _
  · have hline : performAll [.putLine first] pen = pen.put (String.ofList _) :=
      performAll_of_writesText rfl pen
    have htext : String.ofList ([Command.putLine first].flatMap Command.text) = first ++ "\n" := by
      simp [Command.text]
    rw [htext] at hline
    rw [← hline]
    show pen.putLine first = (pen.putLine first).andThen .done
    exact (Outcome.andThen_done _).symm

end JavaResources.Pen
