import JavaResources.Proofs.DocComment.Stripped

/-!
# What a printed comment tells

However a comment is collected, its lines are trimmed and hold no line feeds, and the first of them
is not empty: every comment is `Tidy`. Such a comment prints one line for each of its own, two
around them, and one for each annotation. `layout_collect` says so for every level and indentation,
and that comments which print the same text are the same. No line of the comment block can be
mistaken for an annotation, since only annotations begin with their sign.
-/

namespace JavaResources

open Text

/-! ## Collected comments -/

namespace DocComment

/-- A comment whose lines are trimmed and end nowhere but at their ends, and that does not begin
with an empty line. -/
structure Tidy (comment : DocComment) : Prop where
  lineFeed : ∀ line ∈ comment.lines, '\n' ∉ line.toList
  trimmed : ∀ line ∈ comment.lines, trim line.toList = line.toList
  first : comment.lines.head? ≠ some ""

/-- A tag is deleted without anything being put in its place. -/
theorem mem_of_mem_stripTag {mark : Mark} {line : List Char} {c : Char}
    (h : c ∈ (stripTag mark line).1) : c ∈ line := by
  rw [stripTag] at h
  cases hrest : without? mark.tag.toList line with
  | none => simpa [hrest] using h
  | some rest =>
      obtain ⟨before, after, rfl, rfl⟩ := exists_of_without? hrest
      simp only [hrest, List.mem_append] at h ⊢
      tauto

/-- What is kept of a line has no characters that the line has not. -/
theorem mem_of_mem_text_readLine {line : List Char} {c : Char}
    (h : c ∈ (readLine (trim line)).text) : c ∈ line := by
  rw [text_readLine, stripped] at h
  exact mem_of_mem_trim (mem_of_mem_stripTag (mem_of_mem_stripTag (mem_of_mem_trim h)))

/-- What is kept of a line is trimmed. -/
theorem trim_text_readLine (line : List Char) :
    trim (readLine line).text = (readLine line).text := by
  rw [text_readLine, trim_trim]

namespace Tidy

variable {comment : DocComment}

/-- An appended text leaves a comment tidy. -/
theorem append (h : Tidy comment) (text : String) : Tidy (comment.append text) := by
  have hlines := lines_append comment text
  have hadded : ∀ stored ∈ (Text.lines text.toList).flatMap keptOf,
      '\n' ∉ stored.toList ∧ trim stored.toList = stored.toList ∧ stored ≠ "" := by
    intro stored hstored
    obtain ⟨line, hline, hkept⟩ := List.mem_flatMap.1 hstored
    obtain ⟨hne, htext⟩ := mem_keptOf.1 hkept
    rw [htext]
    exact ⟨fun hfeed => not_mem_of_mem_pieces line hline (mem_of_mem_text_readLine hfeed),
      trim_text_readLine _, hne⟩
  refine ⟨fun line hline => ?_, fun line hline => ?_, fun hfirst => ?_⟩
  · rw [hlines, List.mem_append] at hline
    exact hline.elim (h.lineFeed line) fun hline => (hadded line hline).1
  · rw [hlines, List.mem_append] at hline
    exact hline.elim (h.trimmed line) fun hline => (hadded line hline).2.1
  · -- The first line is the one that was first, or else the first of those added.
    rw [hlines, List.head?_append] at hfirst
    cases hbefore : comment.lines.head? with
    | none =>
        rw [hbefore, Option.none_or] at hfirst
        exact (hadded "" (List.mem_of_head? hfirst)).2.2 rfl
    | some line =>
        rw [hbefore, Option.some_or] at hfirst
        exact h.first (hbefore.trans hfirst)

/-- An empty line is only added behind others, which leaves a comment tidy. -/
theorem appendBreak (h : Tidy comment) : Tidy comment.appendBreak := by
  unfold DocComment.appendBreak
  split
  · next htext =>
      refine ⟨fun line hline => ?_, fun line hline => ?_, fun hfirst => ?_⟩
      · rcases List.mem_append.1 hline with hline | hline
        · exact h.lineFeed line hline
        · rw [List.mem_singleton.1 hline]
          exact List.not_mem_nil
      · rcases List.mem_append.1 hline with hline | hline
        · exact h.trimmed line hline
        · rw [List.mem_singleton.1 hline]
          rfl
      · cases hlines : comment.lines with
        | nil => simp [hasText, hlines] at htext
        | cons first others =>
            have hstart := h.first
            rw [hlines] at hstart hfirst
            exact hstart hfirst
  · exact h

/-- A step leaves a comment tidy. -/
theorem extend (h : Tidy comment) (step : Step) : Tidy (comment.extend step) := by
  cases step with
  | append text => exact h.append text
  | appendBreak => exact h.appendBreak

end Tidy

/-- However a comment is collected, it is tidy. -/
theorem tidy_collect (steps : List Step) : Tidy (collect steps) := by
  have hrun (comment : DocComment) (h : Tidy comment) : Tidy (steps.foldl extend comment) := by
    induction steps generalizing comment with
    | nil => exact h
    | cons step others ih => exact ih _ (h.extend step)
  exact hrun {} ⟨by simp, by simp, by simp⟩

/-! ## Printed lines -/

/-- A comment block has two lines more than the comment, if it has any. -/
theorem length_blockLines (comment : DocComment) :
    comment.blockLines.length = if comment.lines = [] then 0 else comment.lines.length + 2 := by
  unfold blockLines hasText
  cases comment.lines with
  | nil => rfl
  | cons first others => simp

/-- What a line of a comment block is: the first or the last one, or one for a line. -/
theorem mem_blockLines {comment : DocComment} {line : String} (h : line ∈ comment.blockLines) :
    line = "/**" ∨ line = " */" ∨ ∃ stored ∈ comment.lines, line = blockLine stored := by
  unfold blockLines at h
  split at h
  · simp only [List.cons_append, List.mem_cons, List.mem_append, List.mem_map,
      List.not_mem_nil, or_false] at h
    rcases h with rfl | ⟨stored, hstored, rfl⟩ | rfl
    · exact .inl rfl
    · exact .inr (.inr ⟨stored, hstored, rfl⟩)
    · exact .inr (.inl rfl)
  · exact absurd h List.not_mem_nil

/-- A line of a comment block does not begin with the sign of an annotation. -/
theorem exists_cons_of_mem_blockLines {comment : DocComment} {line : String}
    (h : line ∈ comment.blockLines) : ∃ c rest, line.toList = c :: rest ∧ c ≠ '@' := by
  rcases mem_blockLines h with rfl | rfl | ⟨stored, -, rfl⟩
  · exact ⟨'/', ['*', '*'], rfl, by decide⟩
  · exact ⟨' ', ['*', '/'], rfl, by decide⟩
  · unfold blockLine
    split
    · exact ⟨' ', ['*'], rfl, by decide⟩
    · rw [String.toList_append]
      exact ⟨' ', _, rfl, by decide⟩

/-- A line of a comment block holds no line feed if the comment holds none. -/
theorem lineFeed_not_mem_of_mem_blockLines {comment : DocComment} (h : Tidy comment) {line : String}
    (hline : line ∈ comment.blockLines) : '\n' ∉ line.toList := by
  rcases mem_blockLines hline with rfl | rfl | ⟨stored, hstored, rfl⟩
  · decide
  · decide
  · unfold blockLine
    split
    · decide
    · have hfeed := h.lineFeed stored hstored
      simp [hfeed]

end DocComment

namespace Mark

/-- An annotation begins with its sign. -/
theorem exists_text_cons (mark : Mark) : ∃ rest, mark.text.toList = '@' :: rest := by
  cases mark <;> exact ⟨_, rfl⟩

/-- An annotation holds no line feed. -/
theorem lineFeed_not_mem_text (mark : Mark) : '\n' ∉ mark.text.toList := by
  cases mark <;> decide

/-- Different annotations have different texts. -/
theorem text_injective : Function.Injective text := by
  intro first second h
  cases first <;> cases second <;> first | rfl | exact absurd h (by decide)

end Mark

namespace DocComment

/-- No line of a comment block is an annotation. -/
theorem ne_text_of_mem_blockLines {comment : DocComment} {line : String}
    (h : line ∈ comment.blockLines) (mark : Mark) : line ≠ mark.text := by
  rintro rfl
  obtain ⟨c, rest, hline, hc⟩ := exists_cons_of_mem_blockLines h
  obtain ⟨letters, htext⟩ := mark.exists_text_cons
  rw [htext, List.cons.injEq] at hline
  exact hc hline.1.symm

/-- Printed lines are not empty, and a tidy comment has no line feeds in them. -/
theorem forall_mem_printedLines {comment : DocComment} (h : Tidy comment) :
    ∀ line ∈ comment.printedLines, line.toList ≠ [] ∧ '\n' ∉ line.toList := by
  intro line hline
  rw [printedLines, List.mem_append, List.mem_map] at hline
  rcases hline with hline | ⟨mark, -, rfl⟩
  · obtain ⟨c, rest, hcons, -⟩ := exists_cons_of_mem_blockLines hline
    exact ⟨by simp [hcons], lineFeed_not_mem_of_mem_blockLines h hline⟩
  · obtain ⟨rest, hcons⟩ := mark.exists_text_cons
    exact ⟨by simp [hcons], mark.lineFeed_not_mem_text⟩

/-! ## What the lines tell -/

/-- Different lines have different lines in a comment block. -/
theorem blockLine_injective : Function.Injective blockLine := by
  have hlong (line : String) : " * " ++ line ≠ " *" := by
    intro h
    have hlength := congrArg String.length h
    rw [String.length_append] at hlength
    have htwo : " *".length = 2 := rfl
    have hthree : " * ".length = 3 := rfl
    omega
  intro first second h
  unfold blockLine at h
  split at h
  · next hfirst =>
      split at h
      · next hsecond => rw [hfirst, hsecond]
      · exact absurd h.symm (hlong second)
  · split at h
    · exact absurd h (hlong first)
    · rw [String.ext_iff, String.toList_append, String.toList_append] at h
      exact String.ext (List.append_cancel_left h)

/-- The lines of a comment block tell the lines of the comment. -/
theorem lines_eq_of_blockLines_eq {first second : DocComment}
    (h : first.blockLines = second.blockLines) : first.lines = second.lines := by
  have hblock (comment : DocComment) (hne : comment.lines ≠ []) :
      comment.blockLines = "/**" :: comment.lines.map blockLine ++ [" */"] := by
    refine if_pos ?_
    simpa [hasText] using hne
  have hnone (comment : DocComment) (hnil : comment.lines = []) : comment.blockLines = [] := by
    refine if_neg ?_
    simp [hasText, hnil]
  by_cases hfirst : first.lines = [] <;> by_cases hsecond : second.lines = []
  · rw [hfirst, hsecond]
  · rw [hnone first hfirst, hblock second hsecond] at h
    exact absurd h (by simp)
  · rw [hblock first hfirst, hnone second hsecond] at h
    exact absurd h (by simp)
  · rw [hblock first hfirst, hblock second hsecond, List.cons_append, List.cons_append,
      List.cons.injEq] at h
    exact blockLine_injective.list_map (List.append_cancel_right h.2)

/-- The annotations among the printed lines are those of the comment, and the other lines are its
block. -/
theorem filter_printedLines (comment : DocComment) :
    comment.printedLines.filter (· ∈ Mark.all.map Mark.text)
        = comment.annotations.toList.map Mark.text ∧
      comment.printedLines.filter (· ∉ Mark.all.map Mark.text) = comment.blockLines := by
  have hblock : ∀ line ∈ comment.blockLines, line ∉ Mark.all.map Mark.text := by
    intro line hline hmark
    obtain ⟨mark, -, rfl⟩ := List.mem_map.1 hmark
    exact ne_text_of_mem_blockLines hline mark rfl
  have hmarks : ∀ line ∈ comment.annotations.toList.map Mark.text,
      line ∈ Mark.all.map Mark.text := by
    intro line hline
    obtain ⟨mark, hmark, rfl⟩ := List.mem_map.1 hline
    exact List.mem_map_of_mem (List.mem_of_mem_filter hmark)
  rw [printedLines, List.filter_append, List.filter_append]
  constructor
  · rw [List.filter_eq_nil_iff.2 (by simpa using hblock), List.nil_append,
      List.filter_eq_self.2 (by simpa using hmarks)]
  · rw [List.filter_eq_self.2 (by simpa using hblock),
      List.filter_eq_nil_iff.2 (by simpa using hmarks), List.append_nil]

/-- Printed lines tell the comment. -/
theorem eq_of_printedLines_eq {first second : DocComment}
    (h : first.printedLines = second.printedLines) : first = second := by
  obtain ⟨hmarks, hblock⟩ := first.filter_printedLines
  rw [h, second.filter_printedLines.1] at hmarks
  rw [h, second.filter_printedLines.2] at hblock
  have hlines := lines_eq_of_blockLines_eq hblock.symm
  have hannotations : first.annotations = second.annotations := by
    have htoList := Mark.text_injective.list_map hmarks.symm
    refine MarkSet.eq_of_contains fun mark => ?_
    rw [Bool.eq_iff_iff, ← MarkSet.mem_toList, ← MarkSet.mem_toList, htoList]
  obtain ⟨lines, annotations⟩ := first
  exact congr (congrArg DocComment.mk hlines) hannotations

/-! ## What a pen writes -/

/-- The lines of a comment and its annotations as they are printed at a level. -/
def linesAt (indentation : Indentation) (level : Nat) (comment : DocComment) : List (List Char) :=
  comment.printedLines.map fun line => indentation.lead level ++ line.toList

/-- At the start of a line, a pen writes a tidy comment line by line, each with its end. -/
theorem performAll_layout {comment : DocComment} (h : Tidy comment) (pen : Pen)
    (hsink : pen.sink.Unlimited) (hstart : pen.owesIndent = true) :
    (Pen.performAll comment.layout pen).fault = none ∧
      (Pen.performAll comment.layout pen).state.sink.written.toList
        = pen.sink.written.toList
          ++ encode ((comment.linesAt pen.indentation pen.level).flatMap (· ++ ['\n'])) := by
  have hwrites := comment.writesText_layout
  have hclosed : Command.Closed comment.layout := .of_writesText hwrites
  have hlines : ∀ line ∈ comment.printedLines.map String.toList, line ≠ [] ∧ '\n' ∉ line := by
    simpa using forall_mem_printedLines h
  have hwrote := Pen.performAll_wrote (hclosed.permitted_at pen.level)
  rw [hstart, Command.strokesAll_of_writesText hwrites, comment.text_layout, comment.rendering_eq,
    Stroke.ink_ofText_lines _ _ hlines, List.map_map] at hwrote
  exact hwrote.of_unlimited hsink

/-- A tidy comment is printed in lines that hold no line feed. -/
theorem lineFeed_not_mem_of_mem_linesAt {comment : DocComment} (h : Tidy comment)
    {indentation : Indentation} {level : Nat} :
    ∀ line ∈ comment.linesAt indentation level, '\n' ∉ line := by
  intro line hline
  obtain ⟨printed, hprinted, rfl⟩ := List.mem_map.1 hline
  rw [List.mem_append, not_or]
  exact ⟨indentation.lineFeed_not_mem_lead level, (forall_mem_printedLines h printed hprinted).2⟩

/-- At one level and indentation, tidy comments with the same text are the same. -/
theorem eq_of_flatMap_linesAt_eq {first second : DocComment} (hfirst : Tidy first)
    (hsecond : Tidy second) {indentation : Indentation} {level : Nat}
    (h : (first.linesAt indentation level).flatMap (· ++ ['\n'])
      = (second.linesAt indentation level).flatMap (· ++ ['\n'])) : first = second := by
  have hlines := congrArg (pieces '\n') h
  rw [pieces_flatMap_concat (lineFeed_not_mem_of_mem_linesAt hfirst),
    pieces_flatMap_concat (lineFeed_not_mem_of_mem_linesAt hsecond)] at hlines
  have hinjective : Function.Injective fun line : String =>
      indentation.lead level ++ line.toList := by
    intro line other hline
    exact String.ext (List.append_cancel_left hline)
  exact eq_of_printedLines_eq (hinjective.list_map (List.append_cancel_right hlines))

/-- However a comment is collected, its lines are trimmed and hold no line feeds, and the first one
is not empty.

A pen at the start of a line prints it in lines that each have an end: if the comment has lines,
these and two more around them, and then each of its annotations once, in the order of
`Mark.deprecated`, `Mark.systemApi` and `Mark.testApi`. No line above them is that of an annotation.
Of all comments that can be collected, no other one is printed as the same text. -/
theorem layout_collect (steps : List Step) :
    (∀ line ∈ (collect steps).lines, '\n' ∉ line.toList ∧ trim line.toList = line.toList) ∧
    (collect steps).lines.head? ≠ some "" ∧
    ∀ pen : Pen, pen.sink.Unlimited → pen.owesIndent = true →
      (∃ block printed : List (List Char), ∃ marks : List Mark,
        marks = [.deprecated, .systemApi, .testApi].filter (collect steps).annotations.contains ∧
        printed = block ++ marks.map
          (fun mark => pen.indentation.lead pen.level ++ mark.text.toList) ∧
        (∀ line ∈ block, ∀ mark : Mark,
          line ≠ pen.indentation.lead pen.level ++ mark.text.toList) ∧
        printed.length
          = (if (collect steps).lines = [] then 0 else (collect steps).lines.length + 2)
            + marks.length ∧
        (∀ line ∈ printed, '\n' ∉ line) ∧
        (Pen.performAll (collect steps).layout pen).fault = none ∧
        (Pen.performAll (collect steps).layout pen).state.sink.written.toList
          = pen.sink.written.toList ++ encode (printed.flatMap (· ++ ['\n']))) ∧
      ∀ others : List Step,
        (Pen.performAll (collect others).layout pen).state.sink.written
            = (Pen.performAll (collect steps).layout pen).state.sink.written ↔
          collect others = collect steps := by
  have htidy := tidy_collect steps
  refine ⟨fun line hline => ⟨htidy.lineFeed line hline, htidy.trimmed line hline⟩, htidy.first,
    fun pen hsink hstart => ⟨?_, fun others => ⟨fun h => ?_, fun h => by rw [h]⟩⟩⟩
  · obtain ⟨hfault, hwritten⟩ := performAll_layout htidy pen hsink hstart
    refine ⟨(collect steps).blockLines.map fun line =>
        pen.indentation.lead pen.level ++ line.toList,
      (collect steps).linesAt pen.indentation pen.level, (collect steps).annotations.toList, rfl,
      ?_, ?_, ?_, lineFeed_not_mem_of_mem_linesAt htidy, hfault, hwritten⟩
    · rw [linesAt, printedLines, List.map_append, List.map_map]
      rfl
    · intro line hline mark h
      obtain ⟨stored, hstored, rfl⟩ := List.mem_map.1 hline
      exact ne_text_of_mem_blockLines hstored mark (String.ext (List.append_cancel_left h))
    · rw [linesAt, printedLines, List.length_map, List.length_append, length_blockLines,
        List.length_map]
  · have hothers := (performAll_layout (tidy_collect others) pen hsink hstart).2
    rw [h, (performAll_layout htidy pen hsink hstart).2] at hothers
    have htexts := encode_inj (List.append_cancel_left hothers)
    exact (eq_of_flatMap_linesAt_eq htidy (tidy_collect others) htexts).symm

/-- Two comments that differ in an empty line at the end alone are told apart by their texts, with a
line that looks like an annotation in both. -/
theorem layout_collect_empty_line :
    let steps : List Step := [.append "*\n@Deprecated @SystemApi", .appendBreak]
    let others : List Step := [.append "*\n@Deprecated\n@SystemApi"]
    let pen : Pen := { indentation := .tab, level := 1, sink := { chunk := some 1 } }
    Sink.Unlimited { chunk := some 1 } ∧ pen.owesIndent = true ∧
      (∃ printed : List (List Char), printed.length = 6 ∧
        (Pen.performAll (collect steps).layout pen).state.sink.written.toList
          = encode (printed.flatMap (· ++ ['\n']))) ∧
      (Pen.performAll (collect others).layout pen).state.sink.written
        ≠ (Pen.performAll (collect steps).layout pen).state.sink.written := by
  intro steps others pen
  have hsink : Sink.Unlimited { chunk := some 1 } := rfl
  obtain ⟨⟨block, printed, marks, hmarks, -, -, hlength, -, -, hwritten⟩, hothers⟩ :=
    (layout_collect steps).2.2 pen hsink rfl
  refine ⟨hsink, rfl, ⟨printed, ?_, hwritten⟩, fun h => ?_⟩
  · rw [hlength, hmarks]
    decide
  · exact absurd ((hothers others).1 h) (by decide)

end DocComment

end JavaResources
