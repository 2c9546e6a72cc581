import JavaResources.Proofs.Pen.Deeper

/-!
# Lines with their levels

What strokes leave behind is a list of lines, each with the level that it is indented to. The list
does not depend on the unit of indentation: `ink_eq_leveledLines` says that the unit is only put in
front of the lines, as often as their levels ask for. A line without text is not indented.
-/

namespace JavaResources

/-- A line with the level that it is indented to. -/
structure LeveledLine where
  level : Nat
  text : List Char
  lineFeed : '\n' ∉ text
  blank : text = [] → level = 0

namespace LeveledLine

/-- The line behind its indentation. -/
def inked (indentation : Indentation) (line : LeveledLine) : List Char :=
  indentation.lead line.level ++ line.text

/-- What is left of a text without as many characters as the indentation of the line has. -/
def stripped (indentation : Indentation) (line : LeveledLine) (text : List Char) : List Char :=
  text.drop (indentation.lead line.level).length

/-- The indentation of a line can be taken away again. -/
theorem stripped_inked (indentation : Indentation) (line : LeveledLine) :
    line.stripped indentation (line.inked indentation) = line.text :=
  List.drop_left

theorem lineFeed_not_mem_inked (indentation : Indentation) (line : LeveledLine) :
    '\n' ∉ line.inked indentation := by
  rw [inked, List.mem_append, not_or]
  exact ⟨indentation.lineFeed_not_mem_lead line.level, line.lineFeed⟩

/-- Lines that are joined are told from their text again. -/
theorem lines_joined_inked (indentation : Indentation) {lines : List LeveledLine}
    (hne : lines ≠ []) :
    Text.lines (Text.joined '\n' (lines.map (inked indentation)))
      = lines.map (inked indentation) := by
  refine Text.pieces_joined (by simpa using hne) fun text htext => ?_
  obtain ⟨line, -, rfl⟩ := List.mem_map.1 htext
  exact line.lineFeed_not_mem_inked indentation

end LeveledLine

namespace Stroke

/-- No stroke on a line ends it. -/
theorem not_endsLine_of_mem_lines {strokes : List Stroke} :
    ∀ line ∈ lines strokes, ∀ stroke ∈ line, ¬ stroke.endsLine = true := by
  induction strokes with
  | nil =>
      intro line hline stroke hstroke
      rw [List.mem_singleton.1 hline] at hstroke
      exact absurd hstroke List.not_mem_nil
  | cons first others ih =>
      intro line hline stroke hstroke
      rw [lines, List.splitOnP_cons_eq_if_modifyHead] at hline
      split at hline
      · rcases List.mem_cons.1 hline with rfl | hline
        · exact absurd hstroke List.not_mem_nil
        · exact ih line hline stroke hstroke
      · next hend =>
          rw [← lines] at hline
          cases hlines : lines others with
          | nil => exact absurd hlines (List.splitOnP_ne_nil endsLine others)
          | cons head rest =>
              rw [hlines] at hline ih
              rcases List.mem_cons.1 hline with rfl | hline
              · rcases List.mem_cons.1 hstroke with rfl | hstroke
                · exact hend
                · exact ih head List.mem_cons_self stroke hstroke
              · exact ih line (List.mem_cons_of_mem head hline) stroke hstroke

/-- The line that strokes are drawn on, with the level of its first character. -/
def leveledLine : (line : List Stroke) → (∀ stroke ∈ line, ¬ stroke.endsLine = true) → LeveledLine
  | [], _ => ⟨0, [], List.not_mem_nil, fun _ => rfl⟩
  | first :: others, h =>
    { level := first.level
      text := chars (first :: others)
      lineFeed := fun hfeed => by
        obtain ⟨stroke, hstroke, hchar⟩ := List.mem_map.1 hfeed
        exact h stroke hstroke (decide_eq_true hchar)
      blank := fun hnil => nomatch hnil }

/-- The lines that strokes are drawn on, with their levels. -/
def leveledLines (strokes : List Stroke) : List LeveledLine :=
  (lines strokes).pmap leveledLine not_endsLine_of_mem_lines

theorem leveledLines_ne_nil (strokes : List Stroke) : leveledLines strokes ≠ [] := by
  rw [leveledLines, Ne, List.pmap_eq_nil_iff]
  exact List.splitOnP_ne_nil endsLine strokes

/-- The text of a line is what is written of the line with its level. -/
theorem inked_leveledLine (indentation : Indentation) (line : List Stroke)
    (h : ∀ stroke ∈ line, ¬ stroke.endsLine = true) :
    (leveledLine line h).inked indentation = lineText indentation line := by
  cases line <;> rfl

/-- Strokes that start on a new line leave their lines, with the unit of indentation in front of
them as often as their levels ask for. -/
theorem ink_eq_leveledLines (indentation : Indentation) (strokes : List Stroke) :
    ink indentation true strokes
      = Text.joined '\n' ((leveledLines strokes).map (LeveledLine.inked indentation)) := by
  rw [ink_eq_joined, leveledLines, List.map_pmap]
  simp only [inked_leveledLine, List.pmap_eq_map]

/-- The end of a line keeps the lines in front of it and behind it apart. -/
theorem leveledLines_append_cons (first second : List Stroke) {stroke : Stroke}
    (h : stroke.endsLine = true) :
    leveledLines (first ++ stroke :: second) = leveledLines first ++ leveledLines second := by
  have hlines : lines (first ++ stroke :: second) = lines first ++ lines second :=
    List.splitOnP_append_cons first second h
  simp only [leveledLines, hlines, List.pmap_append]

/-- The line of a text at level zero is the text, without indentation. -/
theorem leveledLine_ofText_zero (text : List Char)
    (h : ∀ stroke ∈ ofText 0 text, ¬ stroke.endsLine = true) :
    (leveledLine (ofText 0 text) h).text = text ∧ (leveledLine (ofText 0 text) h).level = 0 := by
  cases text with
  | nil => exact ⟨rfl, rfl⟩
  | cons c rest =>
      refine ⟨?_, rfl⟩
      show chars (ofText 0 (c :: rest)) = c :: rest
      simp [chars, ofText, Function.comp_def]

/-- The lines of a text at level zero are those of the text, without indentation. -/
theorem leveledLines_ofText_zero (text : List Char) :
    (leveledLines (ofText 0 text)).map LeveledLine.text = Text.lines text ∧
      ∀ line ∈ leveledLines (ofText 0 text), line.level = 0 := by
  constructor
  · simp only [leveledLines, lines_ofText, List.pmap_map, List.map_pmap,
      (leveledLine_ofText_zero _ _).1, List.pmap_eq_map, List.map_id']
  · intro line hline
    obtain ⟨strokes, hstrokes, rfl⟩ := List.mem_pmap.1 hline
    rw [lines_ofText] at hstrokes
    obtain ⟨piece, -, rfl⟩ := List.mem_map.1 hstrokes
    exact (leveledLine_ofText_zero piece _).2

end Stroke

end JavaResources
