import JavaResources.Proofs.Pen.Lines
import JavaResources.Text.Blank
import Mathlib.Logic.Function.Iterate

/-!
# Text some levels deeper

`Indentation.indentLines` puts one unit in front of every line of a text that is not empty.
`ink_deepen` says that strokes one level deeper leave just that of their text, whatever line ends
and blank lines the text has.
-/

namespace JavaResources

/-- A line one level deeper, where an empty line stays empty. -/
def Indentation.indentLine (indentation : Indentation) (line : List Char) : List Char :=
  if line = [] then [] else indentation.unit.toList ++ line

/-- A text with its lines one level deeper. -/
def Indentation.indentLines (indentation : Indentation) (text : List Char) : List Char :=
  Text.joined '\n' ((Text.lines text).map indentation.indentLine)

namespace Indentation

/-- The characters that indent are blanks. -/
theorem isBlank_of_mem_unit {indentation : Indentation} :
    ∀ c ∈ indentation.unit.toList, Text.isBlank c = true := by
  cases indentation with
  | spaces width =>
      intro c hc
      rw [unit, String.toList_ofList] at hc
      rw [List.eq_of_mem_replicate hc]
      decide
  | tab =>
      intro c hc
      have htab : c = '\t' := by simpa [unit] using hc
      rw [htab]
      decide

/-- A line one level deeper has no line feed if the line has none. -/
theorem lineFeed_not_mem_indentLine (indentation : Indentation) {line : List Char}
    (h : '\n' ∉ line) : '\n' ∉ indentation.indentLine line := by
  unfold indentLine
  split
  · exact List.not_mem_nil
  · simp [indentation.lineFeed_not_mem_unit, h]

/-- The lines of a text one level deeper. -/
theorem lines_indentLines (indentation : Indentation) (text : List Char) :
    Text.lines (indentation.indentLines text)
      = (Text.lines text).map indentation.indentLine := by
  refine Text.pieces_joined ?_ ?_
  · simpa [Text.lines] using Text.pieces_ne_nil '\n' text
  · intro indented hindented
    obtain ⟨line, hline, rfl⟩ := List.mem_map.1 hindented
    exact indentation.lineFeed_not_mem_indentLine (Text.not_mem_of_mem_pieces line hline)

/-- Lines that are joined are one level deeper if each of them is. -/
theorem indentLines_joined (indentation : Indentation) {lines : List (List Char)} (hne : lines ≠ [])
    (h : ∀ line ∈ lines, '\n' ∉ line) :
    indentation.indentLines (Text.joined '\n' lines)
      = Text.joined '\n' (lines.map indentation.indentLine) := by
  rw [indentLines, Text.lines, Text.pieces_joined hne h]

/-- Behind its blanks, a line is the same one level deeper. -/
theorem trimLeft_indentLine (indentation : Indentation) (line : List Char) :
    Text.trimLeft (indentation.indentLine line) = Text.trimLeft line := by
  unfold indentLine
  split
  · next hline => rw [hline]
  · exact List.dropWhile_append_of_pos isBlank_of_mem_unit

end Indentation

namespace Stroke

/-- The lines of the strokes of a text are the lines of the text. -/
theorem lines_ofText (level : Nat) (text : List Char) :
    lines (ofText level text) = (Text.lines text).map (ofText level) := by
  induction text with
  | nil => rfl
  | cons c rest ih =>
      show (⟨level, c⟩ :: ofText level rest).splitOnP endsLine
        = (Text.pieces '\n' (c :: rest)).map (ofText level)
      rw [lines, Text.lines] at ih
      rw [List.splitOnP_cons_eq_if_modifyHead, ih, Text.pieces]
      by_cases hc : c = '\n'
      · simp [hc, endsLine, ofText]
      · rw [if_neg (by simpa [endsLine] using hc), if_neg hc]
        cases hpieces : Text.pieces '\n' rest with
        | nil => exact absurd hpieces (Text.pieces_ne_nil '\n' rest)
        | cons piece others => rfl

/-- At level zero strokes leave their characters alone. -/
theorem ink_ofText_zero (indentation : Indentation) (owes : Bool) (text : List Char) :
    ink indentation owes (ofText 0 text) = text := by
  induction text generalizing owes with
  | nil => rfl
  | cons c rest ih =>
      rw [ofText, List.map_cons, ink, ← ofText, ih, ih]
      have hlead : (if owes then indentation.lead 0 else []) = [] := by cases owes <;> rfl
      split
      · next hend => rw [← of_decide_eq_true hend]
      · rw [hlead, List.nil_append]

/-- Text at level one is text with its lines one level deeper. -/
theorem ink_ofText_one (indentation : Indentation) (text : List Char) :
    ink indentation true (ofText 1 text) = indentation.indentLines text := by
  have hline (piece : List Char) :
      lineText indentation (ofText 1 piece) = indentation.indentLine piece := by
    cases piece with
    | nil => rfl
    | cons c rest =>
        simp [lineText, ofText, chars, Indentation.indentLine, Indentation.lead, Function.comp_def]
  rw [ink_eq_joined, lines_ofText, List.map_map, Indentation.indentLines]
  exact congrArg _ (List.map_congr_left fun piece _ => hline piece)

/-- Characters in the middle of a line leave themselves. -/
theorem ink_ofText_append (indentation : Indentation) {text : List Char} (htext : '\n' ∉ text)
    (level : Nat) (others : List Stroke) :
    ink indentation false (ofText level text ++ others)
      = text ++ ink indentation false others := by
  induction text with
  | nil => rfl
  | cons c rest ih =>
      rw [List.mem_cons, not_or] at htext
      have hend : endsLine ⟨level, c⟩ ≠ true := by simpa [endsLine] using Ne.symm htext.1
      show ink indentation false (⟨level, c⟩ :: (ofText level rest ++ others)) = _
      rw [ink, if_neg hend, ih htext.2]
      rfl

/-- A text without line ends that starts a line has the indentation of its level. -/
theorem ink_ofText_cons (indentation : Indentation) {text : List Char} (htext : '\n' ∉ text)
    (hne : text ≠ []) (level : Nat) (others : List Stroke) :
    ink indentation true (ofText level text ++ others)
      = indentation.lead level ++ text ++ ink indentation false others := by
  cases text with
  | nil => contradiction
  | cons c rest =>
      have hend : endsLine ⟨level, c⟩ ≠ true := by
        simpa [endsLine] using fun hc : c = '\n' => htext (hc ▸ List.mem_cons_self)
      have hrest := ink_ofText_append indentation (fun h => htext (List.mem_cons_of_mem c h))
        level others
      show ink indentation true (⟨level, c⟩ :: (ofText level rest ++ others)) = _
      rw [ink, if_neg hend, hrest]
      simp

/-- A text without line ends that is a line of its own. -/
theorem ink_ofText_line (indentation : Indentation) {text : List Char} (htext : '\n' ∉ text)
    (hne : text ≠ []) (level : Nat) :
    ink indentation true (ofText level text) = indentation.lead level ++ text := by
  have hline := ink_ofText_cons indentation htext hne level []
  rwa [List.append_nil, ink, List.append_nil] at hline

/-- Lines with their ends have the indentation of their level, each of them. -/
theorem ink_ofText_lines (indentation : Indentation) (level : Nat) {lines : List (List Char)}
    (h : ∀ line ∈ lines, line ≠ [] ∧ '\n' ∉ line) :
    ink indentation true (ofText level (lines.flatMap (· ++ ['\n'])))
      = (lines.map (indentation.lead level ++ ·)).flatMap (· ++ ['\n']) := by
  induction lines with
  | nil => rfl
  | cons line others ih =>
      obtain ⟨hne, hline⟩ := h line List.mem_cons_self
      have hothers := ih fun other hother => h other (List.mem_cons_of_mem line hother)
      rw [List.flatMap_cons, ofText_append, ofText_append, List.append_assoc,
        ink_ofText_cons indentation hline hne, List.map_cons, List.flatMap_cons, ← hothers,
        List.append_assoc _ ['\n']]
      rfl

/-- Lines that start after a line end have the indentation of their level, each of them. -/
theorem ink_ofText_breaks (indentation : Indentation) (owes : Bool) (level : Nat)
    {lines : List (List Char)} (h : ∀ line ∈ lines, line ≠ [] ∧ '\n' ∉ line) :
    ink indentation owes (ofText level (lines.flatMap ('\n' :: ·) ++ ['\n']))
      = lines.flatMap (fun line => '\n' :: (indentation.lead level ++ line)) ++ ['\n'] := by
  have hbreaks := Text.flatMap_cons_concat '\n' (lines.map (indentation.lead level ++ ·))
  rw [List.flatMap_map] at hbreaks
  rw [hbreaks, Text.flatMap_cons_concat, ← ink_ofText_lines indentation level h]
  rfl

/-- Strokes one level deeper leave their text at level one. -/
theorem ink_deepen_one (indentation : Indentation) (owes : Bool) (strokes : List Stroke) :
    ink indentation owes (deepen 1 strokes)
      = ink indentation owes (ofText 1 (ink indentation owes strokes)) := by
  induction strokes generalizing owes with
  | nil => rfl
  | cons stroke others ih =>
      show ink indentation owes (⟨stroke.level + 1, stroke.char⟩ :: deepen 1 others) = _
      by_cases hend : stroke.endsLine = true
      · have hdeeper : endsLine ⟨stroke.level + 1, stroke.char⟩ = true := hend
        rw [ink, if_pos hdeeper, ih, ink, if_pos hend]
        rfl
      · have hdeeper : endsLine ⟨stroke.level + 1, stroke.char⟩ ≠ true := hend
        have hchar : stroke.char ≠ '\n' := by simpa [endsLine] using hend
        rw [ink, if_neg hdeeper, ih, ink, if_neg hend]
        cases owes with
        | false =>
            have hsingle : '\n' ∉ [stroke.char] := by simpa using hchar.symm
            exact (ink_ofText_append indentation hsingle 1 _).symm
        | true =>
            -- The indentation is text like any other once it has been written, one unit deeper.
            have hlead : indentation.lead (stroke.level + 1)
                = indentation.lead 1 ++ indentation.lead stroke.level := by
              simp [Indentation.lead, List.replicate_succ]
            have hfirst : '\n' ∉ indentation.lead stroke.level ++ [stroke.char] := by
              simp [indentation.lineFeed_not_mem_lead, hchar.symm]
            have hline := ink_ofText_cons indentation hfirst (by simp) 1
              (ofText 1 (ink indentation false others))
            rw [← ofText_append] at hline
            simpa [hlead] using hline.symm

/-- Strokes some levels deeper leave their text with its lines indented as often. -/
theorem ink_deepen (indentation : Indentation) (levels : Nat) (strokes : List Stroke) :
    ink indentation true (deepen levels strokes)
      = indentation.indentLines^[levels] (ink indentation true strokes) := by
  induction levels with
  | zero => simp [deepen]
  | succ levels ih =>
      have hdeepen : deepen (levels + 1) strokes = deepen 1 (deepen levels strokes) := by
        simp [deepen, Nat.add_assoc]
      rw [hdeepen, ink_deepen_one, ink_ofText_one, ih, Function.iterate_succ_apply']

/-- Text at a level is text with its lines indented as often. -/
theorem ink_ofText (indentation : Indentation) (level : Nat) (text : List Char) :
    ink indentation true (ofText level text) = indentation.indentLines^[level] text := by
  have hdeepen := ink_deepen indentation level (ofText 0 text)
  rwa [deepen_ofText, Nat.zero_add, ink_ofText_zero] at hdeepen

end Stroke

/-- At the start of a line, a pen on a sink that refuses nothing writes closed commands as it would
at level zero, with the lines as deep as the pen is. -/
theorem Pen.performAll_indentLines {commands : List Command} (h : Command.Closed commands)
    (pen : Pen) (hsink : pen.sink.Unlimited) (hstart : pen.owesIndent = true) :
    (performAll commands pen).fault = none ∧
      (performAll commands pen).state.sink.written.toList
        = pen.sink.written.toList ++ Text.encode (pen.indentation.indentLines^[pen.level]
            (Stroke.ink pen.indentation true (Command.strokesAll 0 commands))) := by
  have hwrote := performAll_wrote (h.permitted_at pen.level)
  rw [hstart, h.strokesAll_eq, Stroke.ink_deepen] at hwrote
  exact hwrote.of_unlimited hsink

end JavaResources
