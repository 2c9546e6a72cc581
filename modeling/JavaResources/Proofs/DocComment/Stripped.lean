import JavaResources.Proofs.DocComment.Tags
import JavaResources.Proofs.Layout.Rendering

/-!
# Tags that stay in a comment

The two tags of the API are to be replaced by annotations, but only the first of each is deleted
from a line. `lines_collect_iff` says exactly when a comment is free of these tags, and the printed
comment block with it: if no line of the texts has one left after its first tag of the system API
and then the first tag of the test API have been deleted. A line with the same tag twice has one
left (`lines_collect_repeated`).
-/

namespace JavaResources

open Text

/-! ## Tags in printed text -/

namespace Mark

/-- Line feeds are no part of a tag. -/
theorem lineFeed_not_mem_tag (mark : Mark) : '\n' ∉ mark.tag.toList :=
  mark.not_mem_tag_of_isBlank (by decide)

/-- A text of lines has a tag exactly if a line has it. -/
theorem infix_flatMap_iff (mark : Mark) (lines : List String) :
    mark.tag.toList <:+: lines.flatMap (fun line => line.toList ++ ['\n'])
      ↔ ∃ line ∈ lines, mark.tag.toList <:+: line.toList := by
  induction lines with
  | nil => simp [mark.tag_ne_nil]
  | cons line others ih =>
      rw [List.flatMap_cons, List.append_assoc, List.singleton_append,
        infix_append_cons_iff mark.tag_ne_nil mark.lineFeed_not_mem_tag, ih]
      simp

/-- Indenting the lines of a text gives them no tags and takes none away. -/
theorem infix_indentLines_iff (mark : Mark) (indentation : Indentation) (text : List Char) :
    mark.tag.toList <:+: indentation.indentLines text ↔ mark.tag.toList <:+: text := by
  have hline (line : List Char) :
      mark.tag.toList <:+: indentation.indentLine line ↔ mark.tag.toList <:+: line := by
    unfold Indentation.indentLine
    split
    · next hline => rw [hline]
    · rw [mark.toList_tag,
        cons_infix_append_iff (sign_not_mem_of_isBlank Indentation.isBlank_of_mem_unit)]
  rw [Indentation.indentLines, infix_joined_iff mark.tag_ne_nil mark.lineFeed_not_mem_tag,
    infix_iff_exists_line mark.tag_ne_nil mark.lineFeed_not_mem_tag text]
  simp [hline]

/-- At any level a text has the same tags. -/
theorem infix_iterate_indentLines_iff (mark : Mark) (indentation : Indentation) (levels : Nat)
    (text : List Char) :
    mark.tag.toList <:+: indentation.indentLines^[levels] text ↔ mark.tag.toList <:+: text := by
  induction levels with
  | zero => rfl
  | succ levels ih => rw [Function.iterate_succ_apply', mark.infix_indentLines_iff, ih]

end Mark

/-- The text has a tag of the API. -/
def Text.HasApiTag (text : List Char) : Prop :=
  Mark.systemApi.tag.toList <:+: text ∨ Mark.testApi.tag.toList <:+: text

/-- Texts are free of the tags of the API if no text has the one and none has the other. -/
theorem Text.forall_not_hasApiTag_iff {α : Type} (items : List α) (text : α → List Char) :
    (∀ item ∈ items, ¬ HasApiTag (text item)) ↔
      ∀ mark ∈ [Mark.systemApi, .testApi], ¬ ∃ item ∈ items, mark.tag.toList <:+: text item := by
  simp [HasApiTag, forall_and]

namespace DocComment

/-- What is left of a line when the first tag of the system API and then the first tag of the test
API have been deleted. -/
def stripped (line : List Char) : List Char :=
  (stripTag .testApi (stripTag .systemApi line).1).1

/-- The text of a line is what is left of it, trimmed. -/
theorem text_readLine (line : List Char) : (readLine line).text = trim (stripped line) :=
  rfl

/-- Blanks around a line stay where they are when a tag is deleted from it. -/
theorem fst_stripTag_between (mark : Mark) {left right : List Char}
    (hleft : ∀ c ∈ left, isBlank c = true) (hright : ∀ c ∈ right, isBlank c = true)
    (line : List Char) :
    (stripTag mark (left ++ line ++ right)).1 = left ++ (stripTag mark line).1 ++ right := by
  rw [stripTag, mark.without?_between hleft hright, stripTag]
  cases without? mark.tag.toList line <;> rfl

/-- What is kept of a line has the tags that are left in it. -/
theorem infix_text_readLine_iff (mark : Mark) (line : List Char) :
    mark.tag.toList <:+: (readLine (trim line)).text ↔ mark.tag.toList <:+: stripped line := by
  obtain ⟨left, right, hline, hleft, hright⟩ := exists_eq_trim line
  have hstripped : stripped line = left ++ stripped (trim line) ++ right := by
    conv_lhs => rw [hline]
    rw [stripped, fst_stripTag_between .systemApi hleft hright,
      fst_stripTag_between .testApi hleft hright]
    rfl
  rw [text_readLine, mark.infix_trim_iff, hstripped, mark.infix_between_iff hleft hright]

/-- A comment has the tags that are left in the lines of its texts. -/
theorem exists_infix_lines_iff (mark : Mark) (steps : List Step) :
    (∃ stored ∈ (collect steps).lines, mark.tag.toList <:+: stored.toList) ↔
      ∃ line ∈ linesOf steps, mark.tag.toList <:+: stripped line := by
  have hne {text : List Char} (htag : mark.tag.toList <:+: text) : text ≠ [] := by
    rintro rfl
    exact mark.tag_ne_nil (List.infix_nil.1 htag)
  -- Only an empty line is stored without being kept of a line of the texts.
  have hstored {stored : String} (h : stored ≠ "") : stored ∈ (collect steps).lines ↔
      stored ∈ (linesOf steps).flatMap keptOf := by
    rw [← filter_lines_collect, List.mem_filter, decide_eq_true_iff]
    exact (and_iff_left h).symm
  simp only [← infix_text_readLine_iff]
  constructor
  · rintro ⟨stored, hmem, htag⟩
    rw [hstored (by simpa using hne htag)] at hmem
    obtain ⟨line, hline, hkept⟩ := List.mem_flatMap.1 hmem
    rw [(mem_keptOf.1 hkept).2] at htag
    exact ⟨line, hline, htag⟩
  · rintro ⟨line, hline, htag⟩
    have hkept : String.ofList (readLine (trim line)).text ∈ keptOf line :=
      mem_keptOf.2 ⟨by simpa using hne htag, String.toList_ofList⟩
    refine ⟨_, (hstored (mem_keptOf.1 hkept).1).2 (List.mem_flatMap.2 ⟨line, hline, hkept⟩), ?_⟩
    rwa [String.toList_ofList]

/-- A comment block has the tags of its lines. -/
theorem exists_infix_blockLines_iff (mark : Mark) (comment : DocComment) :
    (∃ line ∈ comment.blockLines, mark.tag.toList <:+: line.toList) ↔
      ∃ stored ∈ comment.lines, mark.tag.toList <:+: stored.toList := by
  have hframe : ∀ frame ∈ ["/**", " */", " *", ""], ¬ mark.tag.toList <:+: frame.toList := by
    cases mark <;> decide
  have hline (stored : String) : mark.tag.toList <:+: (blockLine stored).toList
      ↔ mark.tag.toList <:+: stored.toList := by
    unfold blockLine
    split
    · next hstored =>
        rw [hstored]
        exact iff_of_false (hframe _ (by simp)) (hframe _ (by simp))
    · rw [String.toList_append, mark.toList_tag, cons_infix_append_iff (by decide)]
  unfold blockLines hasText
  cases hlines : comment.lines with
  | nil => simp
  | cons first others =>
      have hopen : ¬ mark.tag.toList <:+: ['/', '*', '*'] := hframe "/**" (by simp)
      have hclose : ¬ mark.tag.toList <:+: [' ', '*', '/'] := hframe " */" (by simp)
      simp [hopen, hclose, hline]

/-- A comment is printed with the tags that are left in the lines of its texts. -/
theorem infix_printed_iff (mark : Mark) (steps : List Step) (indentation : Indentation)
    (levels : Nat) :
    mark.tag.toList <:+: indentation.indentLines^[levels]
        ((collect steps).blockLayout.flatMap Command.text)
      ↔ ∃ line ∈ linesOf steps, mark.tag.toList <:+: stripped line := by
  rw [mark.infix_iterate_indentLines_iff, text_blockLayout, mark.infix_flatMap_iff,
    exists_infix_blockLines_iff, exists_infix_lines_iff]

/-- However a comment is collected, its lines are free of the tags of the API exactly if none is
left in any line of the texts once the first tag of the system API and then the first tag of the
test API have been deleted from it. The same goes for the lines of the comment block that a pen
writes, at any level. Each tag that stood in a line is replaced by its annotation all the same. -/
theorem lines_collect_iff (steps : List Step) :
    ((∀ stored ∈ (collect steps).lines, ¬ HasApiTag stored.toList) ↔
      ∀ line ∈ linesOf steps, ¬ HasApiTag (stripped line)) ∧
    (∀ pen : Pen, pen.sink.Unlimited → pen.owesIndent = true →
      ∃ printed, (Pen.performAll (collect steps).blockLayout pen).fault = none ∧
        (Pen.performAll (collect steps).blockLayout pen).state.sink.written.toList
          = pen.sink.written.toList ++ encode printed ∧
        ((∀ line ∈ Text.lines printed, ¬ HasApiTag line) ↔
          ∀ line ∈ linesOf steps, ¬ HasApiTag (stripped line))) ∧
    ∀ mark, (∃ line ∈ linesOf steps, mark.tag.toList <:+: line) →
      (collect steps).annotations.contains mark = true := by
  refine ⟨?_, ?_, ?_⟩
  · simp only [forall_not_hasApiTag_iff, exists_infix_lines_iff]
  · intro pen hsink hstart
    have hblock : (collect steps).blockLayout.all Command.writesText = true := by
      have hlayout := (collect steps).writesText_layout
      rw [layout_eq_append, List.all_append, Bool.and_eq_true] at hlayout
      exact hlayout.1
    obtain ⟨hfault, hwritten⟩ := Pen.performAll_indentLines (.of_writesText hblock) pen hsink hstart
    rw [Command.strokesAll_of_writesText hblock, Stroke.ink_ofText_zero] at hwritten
    refine ⟨_, hfault, hwritten, ?_⟩
    have hprinted (mark : Mark) (text : List Char) :
        (∃ line ∈ Text.lines text, mark.tag.toList <:+: line) ↔ mark.tag.toList <:+: text :=
      (infix_iff_exists_line mark.tag_ne_nil mark.lineFeed_not_mem_tag text).symm
    simp only [forall_not_hasApiTag_iff, hprinted, infix_printed_iff]
  · rintro mark ⟨line, hline, htag⟩
    exact (contains_collect steps mark).2 ⟨line, hline, .inl htag⟩

/-- Both tags of a line are deleted, and the comment block two levels deep has none. -/
theorem lines_collect_iff_both :
    (∀ line ∈ linesOf [.append "a @TestApi b\n@SystemApi@TestApi"], ¬ HasApiTag (stripped line)) ∧
      (∀ stored ∈ (collect [.append "a @TestApi b\n@SystemApi@TestApi"]).lines,
        ¬ HasApiTag stored.toList) ∧
      Sink.Unlimited { chunk := some 1 } ∧
      ∃ printed,
        (Pen.performAll (collect [.append "a @TestApi b\n@SystemApi@TestApi"]).blockLayout
          { level := 2, sink := { chunk := some 1 } }).state.sink.written.toList = encode printed ∧
        ∀ line ∈ Text.lines printed, ¬ HasApiTag line := by
  have hstripped : ∀ line ∈ linesOf [.append "a @TestApi b\n@SystemApi@TestApi"],
      ¬ HasApiTag (stripped line) := by
    unfold HasApiTag
    decide
  have hsink : Sink.Unlimited { chunk := some 1 } := rfl
  obtain ⟨hstored, hprinted, -⟩ := lines_collect_iff [.append "a @TestApi b\n@SystemApi@TestApi"]
  obtain ⟨printed, -, hwritten, hlines⟩ :=
    hprinted { level := 2, sink := { chunk := some 1 } } hsink rfl
  exact ⟨hstripped, hstored.2 hstripped, hsink, printed, hwritten, hlines.2 hstripped⟩

/-- Of the same tag twice in a line, the second one stays in the comment. -/
theorem lines_collect_repeated :
    (collect [.append "@SystemApi @SystemApi"]).lines = ["@SystemApi"] ∧
      HasApiTag "@SystemApi".toList := by
  refine ⟨by decide, .inl ?_⟩
  decide

end DocComment

end JavaResources
