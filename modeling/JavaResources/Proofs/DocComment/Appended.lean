import JavaResources.Proofs.DocComment.Stripped

/-!
# Texts that are appended to a comment

A comment does not show how a text was cut into the texts that were appended to it, as long as each
cut is at a line feed, nor how the text marks the ends of its lines: `append_distributes` says so
for every comment and every text. It also says what a text adds: lines behind those that are there,
no more of them than the text has lines that are not blank, and exactly these lines, trimmed, if the
text has no tag of the API.
-/

namespace JavaResources

namespace Text

/-! ## Lines with their ends -/

/-- A line without the carriage return that belongs to the end of the line. -/
def withoutReturn (line : List Char) : List Char :=
  if line.getLast? = some '\r' then line.dropLast else line

/-- The lines that pieces between line feeds are, where a line ends with a line feed or with a
carriage return and a line feed, and the end of the last line may be missing. -/
def linesOfPieces : List (List Char) → List (List Char)
  | [] => []
  | [last] => if last = [] then [] else [last]
  | piece :: others => withoutReturn piece :: linesOfPieces others

/-- The lines of a text in which line feeds, or carriage returns and line feeds, end lines. Nothing
behind the last end is no line. -/
def endedLines (text : List Char) : List (List Char) :=
  linesOfPieces (lines text)

/-- Lines that are not blank, each trimmed. -/
def solid (lines : List (List Char)) : List (List Char) :=
  (lines.map trim).filter (· ≠ [])

/-- Only the trimmed line matters, and a blank line does not. -/
theorem solid_cons (line : List Char) (others : List (List Char)) :
    solid (line :: others) = (if trim line = [] then [] else [trim line]) ++ solid others := by
  rw [solid, List.map_cons, List.filter_cons]
  split <;> simp_all [solid]

/-- The end of a line is trimmed with the blanks in front of it. -/
theorem trim_withoutReturn (line : List Char) : trim (withoutReturn line) = trim line := by
  unfold withoutReturn
  split
  · next hlast =>
      obtain ⟨text, rfl⟩ := List.getLast?_eq_some_iff.1 hlast
      have hreturn : isBlank '\r' = true := by decide
      rw [List.dropLast_concat, trim_concat hreturn]
  · rfl

/-- Trimmed and without the blank ones, the lines are the pieces. -/
theorem solid_linesOfPieces (pieces : List (List Char)) :
    solid (linesOfPieces pieces) = solid pieces := by
  induction pieces with
  | nil => rfl
  | cons piece others ih =>
      cases others with
      | nil =>
          rw [linesOfPieces]
          split
          · next hlast =>
              rw [hlast]
              rfl
          · rfl
      | cons next others =>
          show solid (withoutReturn piece :: linesOfPieces (next :: others)) = _
          rw [solid_cons, trim_withoutReturn, ih, ← solid_cons]

/-- How the ends of lines are marked makes no difference once the lines are trimmed. -/
theorem solid_endedLines (text : List Char) : solid (endedLines text) = solid (lines text) :=
  solid_linesOfPieces (lines text)

/-- The lines that are not blank are trimmed lines of the text. -/
theorem mem_solid {lines : List (List Char)} {line : List Char} :
    line ∈ solid lines ↔ line ≠ [] ∧ ∃ piece ∈ lines, trim piece = line := by
  rw [solid, List.mem_filter, List.mem_map, decide_eq_true_iff, and_comm]

end Text

open Text

namespace DocComment

/-! ## What lines add -/

/-- Blank lines, and blanks around the others, make no difference to a comment. -/
theorem foldl_addLine_solid (comment : DocComment) (lines : List (List Char)) :
    (solid lines).foldl addLine comment = lines.foldl addLine comment := by
  induction lines generalizing comment with
  | nil => rfl
  | cons line others ih =>
      rw [solid_cons, List.foldl_append, List.foldl_cons, ih]
      split
      · next hblank =>
          have hadded : comment.addLine line = comment := if_pos hblank
          rw [hadded]
          rfl
      · have hadded : comment.addLine (trim line) = comment.addLine line := by
          rw [addLine, addLine, trim_trim]
        rw [← hadded]
        rfl

/-- The annotations of a comment stay when a text is appended. -/
theorem contains_annotations_append_of_contains {comment : DocComment} {mark : Mark}
    (h : comment.annotations.contains mark = true) (text : String) :
    (comment.append text).annotations.contains mark = true :=
  (contains_annotations_append comment text mark).2 (.inl h)

/-- A line adds no more than one line. -/
theorem length_keptOf_le (line : List Char) : (keptOf line).length ≤ 1 := by
  unfold keptOf
  split <;> simp

/-- Lines add no more lines than they are. -/
theorem length_flatMap_keptOf_le (lines : List (List Char)) :
    (lines.flatMap keptOf).length ≤ lines.length := by
  induction lines with
  | nil => exact Nat.le_refl 0
  | cons line others ih =>
      have hline := length_keptOf_le line
      rw [List.flatMap_cons, List.length_append, List.length_cons]
      omega

/-- Without the tag there is nothing to delete. -/
theorem fst_stripTag_of_not_infix {mark : Mark} {line : List Char}
    (h : ¬ mark.tag.toList <:+: line) : (stripTag mark line).1 = line := by
  have hnone : without? mark.tag.toList line = none := by
    rw [← Option.not_isSome_iff_eq_none, isSome_without?, occursIn_iff_infix]
    exact h
  rw [stripTag, hnone]

/-- A line without tags of the API is left as it is. -/
theorem stripped_of_not_hasApiTag {line : List Char} (h : ¬ HasApiTag line) :
    stripped line = line := by
  rw [HasApiTag, not_or] at h
  rw [stripped, fst_stripTag_of_not_infix h.1, fst_stripTag_of_not_infix h.2]

/-- A trimmed line without tags of the API is added as it is. -/
theorem keptOf_of_not_hasApiTag {line : List Char} (hne : line ≠ []) (htrim : trim line = line)
    (h : ¬ HasApiTag line) : keptOf line = [String.ofList line] := by
  have htext : (readLine (trim line)).text = line := by
    rw [htrim, text_readLine, stripped_of_not_hasApiTag h, htrim]
  rw [keptOf, htext, if_neg hne]

/-- A trimmed line of a text has a tag of the API only if the text does. -/
theorem hasApiTag_of_mem_solid {text line : List Char} (hline : line ∈ solid (Text.lines text))
    (h : HasApiTag line) : HasApiTag text := by
  obtain ⟨-, piece, hpiece, rfl⟩ := mem_solid.1 hline
  have htag (mark : Mark) (htag : mark.tag.toList <:+: trim piece) : mark.tag.toList <:+: text := by
    rw [mark.infix_trim_iff] at htag
    exact (infix_iff_exists_line mark.tag_ne_nil mark.lineFeed_not_mem_tag text).2
      ⟨piece, hpiece, htag⟩
  exact h.imp (htag .systemApi) (htag .testApi)

/-- A text without tags of the API adds its lines that are not blank, trimmed. -/
theorem flatMap_keptOf_solid {text : List Char} (h : ¬ HasApiTag text) :
    (solid (Text.lines text)).flatMap keptOf = (solid (Text.lines text)).map String.ofList := by
  rw [List.map_eq_flatMap]
  refine List.flatMap_congr fun line hline => ?_
  obtain ⟨hne, piece, -, hpiece⟩ := mem_solid.1 hline
  have htrim : trim line = line := by rw [← hpiece, trim_trim]
  exact keptOf_of_not_hasApiTag hne htrim fun htag => h (hasApiTag_of_mem_solid hline htag)

/-- Appending two texts with a line feed between them is appending one and then the other, whatever
the comment has before and whatever blanks and ends of lines stand around the line feed.

It makes no difference whether line feeds end lines or carriage returns and line feeds do. A text
only adds: the lines of the comment stay in front of the new ones, its annotations stay, and there
are no more new lines than the text has lines that are not blank. If there is no tag of the API in
the text, the new lines are exactly these, trimmed and in their order. -/
theorem append_distributes (comment : DocComment) :
    (∀ first second : String,
      comment.append (first ++ "\n" ++ second) = (comment.append first).append second) ∧
    ∀ text : String,
      comment.append text = (endedLines text.toList).foldl addLine comment ∧
      (∀ mark, comment.annotations.contains mark = true →
        (comment.append text).annotations.contains mark = true) ∧
      ∃ added : List String, (comment.append text).lines = comment.lines ++ added ∧
        added.length ≤ (solid (endedLines text.toList)).length ∧
        (¬ HasApiTag text.toList →
          added = (solid (endedLines text.toList)).map String.ofList) := by
  have hsolid (comment : DocComment) (text : String) :
      comment.append text = (solid (Text.lines text.toList)).foldl addLine comment :=
    (foldl_addLine_solid comment _).symm
  refine ⟨fun first second => ?_, fun text => ⟨?_, ?_, ?_⟩⟩
  · have hlines : Text.lines (first ++ "\n" ++ second).toList
        = Text.lines first.toList ++ Text.lines second.toList := by
      rw [String.toList_append, String.toList_append, List.append_assoc]
      exact pieces_append_cons '\n' first.toList second.toList
    rw [append, hlines, List.foldl_append]
    rfl
  · rw [hsolid, ← solid_endedLines, foldl_addLine_solid]
  · exact fun mark h => contains_annotations_append_of_contains h text
  · rw [solid_endedLines]
    refine ⟨(solid (Text.lines text.toList)).flatMap keptOf, ?_, length_flatMap_keptOf_le _,
      flatMap_keptOf_solid⟩
    rw [hsolid, lines_foldl_addLine]

end DocComment

end JavaResources
