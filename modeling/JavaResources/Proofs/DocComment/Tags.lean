import JavaResources.Proofs.DocComment.Collected

/-!
# Which tags a comment has met

A comment has an annotation if some line of the texts added to it has the tag of the annotation.
`annotations_collect` says so for every way of collecting a comment. The one exception goes the
other way: deleting the first tag of the system API from a line may put together a tag of the test
API, which then counts as well. Since only the lines matter, and not their order or number, comments
that collect the same texts have the same annotations.
-/

namespace JavaResources

open Text

/-! ## Tags as words -/

namespace Mark

/-- The letters of a tag behind its sign. -/
def letters (mark : Mark) : List Char :=
  mark.tag.toList.tail

theorem toList_tag (mark : Mark) : mark.tag.toList = '@' :: mark.letters := by
  cases mark <;> rfl

/-- A tag has its sign once. -/
theorem sign_not_mem_letters (mark : Mark) : '@' ∉ mark.letters := by
  cases mark <;> decide

/-- No tag begins with another one. -/
theorem not_letters_prefix_letters {first second : Mark} (hne : first ≠ second) :
    ¬ first.letters <+: second.letters := by
  cases first <;> cases second <;> first | exact absurd rfl hne | decide

/-- Blanks are no part of a tag. -/
theorem not_mem_tag_of_isBlank (mark : Mark) {c : Char} (hc : isBlank c = true) :
    c ∉ mark.tag.toList := by
  have hsolid : mark.tag.toList.any isBlank = false := by cases mark <;> decide
  intro h
  have hblank : mark.tag.toList.any isBlank = true := List.any_eq_true.2 ⟨c, h, hc⟩
  rw [hsolid] at hblank
  exact Bool.false_ne_true hblank

theorem tag_ne_nil (mark : Mark) : mark.tag.toList ≠ [] := by
  rw [mark.toList_tag]
  exact List.cons_ne_nil _ _

/-- Blanks do not begin with the sign of a tag. -/
theorem sign_not_mem_of_isBlank {left : List Char} (hleft : ∀ c ∈ left, isBlank c = true) :
    '@' ∉ left :=
  fun h => absurd (hleft '@' h) (by decide)

/-- A tag does not reach into blanks around a text. -/
theorem infix_between_iff (mark : Mark) {left right : List Char}
    (hleft : ∀ c ∈ left, isBlank c = true) (hright : ∀ c ∈ right, isBlank c = true)
    (text : List Char) :
    mark.tag.toList <:+: left ++ text ++ right ↔ mark.tag.toList <:+: text := by
  have hright : ∀ c ∈ right, c ∉ mark.tag.toList := fun c hc =>
    mark.not_mem_tag_of_isBlank (hright c hc)
  rw [infix_append_iff mark.tag_ne_nil hright, mark.toList_tag,
    cons_infix_append_iff (sign_not_mem_of_isBlank hleft)]

/-- Trimming a text keeps its tags. -/
theorem infix_trim_iff (mark : Mark) (text : List Char) :
    mark.tag.toList <:+: trim text ↔ mark.tag.toList <:+: text := by
  obtain ⟨left, right, htext, hleft, hright⟩ := exists_eq_trim text
  conv_rhs => rw [htext]
  exact (mark.infix_between_iff hleft hright _).symm

/-- Blanks around a text stay where they are when a tag is deleted from it. -/
theorem without?_between (mark : Mark) {left right : List Char}
    (hleft : ∀ c ∈ left, isBlank c = true) (hright : ∀ c ∈ right, isBlank c = true)
    (text : List Char) :
    without? mark.tag.toList (left ++ text ++ right)
      = (without? mark.tag.toList text).map fun rest => left ++ rest ++ right := by
  have hright : ∀ c ∈ right, c ∉ mark.tag.toList := fun c hc =>
    mark.not_mem_tag_of_isBlank (hright c hc)
  rw [mark.toList_tag] at hright ⊢
  rw [without?_append_right hright, without?_append (sign_not_mem_of_isBlank hleft), Option.map_map]
  rfl

/-- Deleting one tag leaves the other ones. -/
theorem infix_of_without? {mark other : Mark} (hne : mark ≠ other) {text rest : List Char}
    (hrest : without? mark.tag.toList text = some rest) (h : other.tag.toList <:+: text) :
    other.tag.toList <:+: rest := by
  rw [mark.toList_tag] at hrest
  rw [other.toList_tag] at h ⊢
  exact Text.infix_of_without? mark.sign_not_mem_letters other.sign_not_mem_letters
    (not_letters_prefix_letters hne) (not_letters_prefix_letters hne.symm) hrest h

/-- A line makes a comment have an annotation: the tag of the annotation stands in it, or the tag of
the test API does once the first tag of the system API has been deleted. -/
def CalledForBy (mark : Mark) (line : List Char) : Prop :=
  mark.tag.toList <:+: line ∨
    mark = .testApi ∧ ∃ rest, without? systemApi.tag.toList line = some rest ∧
      mark.tag.toList <:+: rest

end Mark

/-! ## What a line is read as -/

namespace DocComment

/-- A tag is found where it stands. -/
theorem snd_stripTag (mark : Mark) (line : List Char) :
    (stripTag mark line).2 = occursIn mark.tag.toList line := by
  rw [← isSome_without?, stripTag]
  split <;> simp_all

/-- The annotations of a line are those that it calls for. -/
theorem contains_readLine (mark : Mark) (line : List Char) :
    (readLine (trim line)).annotations.contains mark = true ↔ mark.CalledForBy line := by
  cases mark with
  | deprecated =>
      have hmark : (readLine (trim line)).annotations.contains .deprecated
          = occursIn Mark.deprecated.tag.toList (trim line) := rfl
      rw [hmark, occursIn_iff_infix, Mark.infix_trim_iff, Mark.CalledForBy]
      simp
  | systemApi =>
      have hmark : (readLine (trim line)).annotations.contains .systemApi
          = (stripTag .systemApi (trim line)).2 := rfl
      rw [hmark, snd_stripTag, occursIn_iff_infix, Mark.infix_trim_iff, Mark.CalledForBy]
      simp
  | testApi =>
      have hmark : (readLine (trim line)).annotations.contains .testApi
          = (stripTag .testApi (stripTag .systemApi (trim line)).1).2 := rfl
      obtain ⟨left, right, hline, hleft, hright⟩ := exists_eq_trim line
      have hwithout := Mark.systemApi.without?_between hleft hright (trim line)
      rw [← hline] at hwithout
      rw [hmark, snd_stripTag, occursIn_iff_infix, Mark.CalledForBy, hwithout,
        ← Mark.infix_trim_iff .testApi line, stripTag]
      cases hrest : without? Mark.systemApi.tag.toList (trim line) with
      | none => simp
      | some rest =>
          -- What stands in the line still stands in it without the other tag.
          have hne : Mark.systemApi ≠ .testApi := by decide
          have hkept := Mark.infix_of_without? hne hrest
          simp only [Option.map_some, Option.some.injEq, true_and, exists_eq_left',
            Mark.infix_between_iff .testApi hleft hright]
          exact ⟨.inr, fun h => h.elim hkept id⟩

/-- A comment has the annotations that some line of its texts calls for. -/
theorem contains_collect (steps : List Step) (mark : Mark) :
    (collect steps).annotations.contains mark = true ↔
      ∃ line ∈ linesOf steps, mark.CalledForBy line := by
  simp only [contains_annotations_collect, contains_readLine]

/-- The commands that write the annotations, each on a line of its own. -/
def annotationLayout (comment : DocComment) : List Command :=
  comment.annotations.toList.map fun mark => .putLine mark.text

theorem layout_eq_append (comment : DocComment) :
    comment.layout = comment.blockLayout ++ comment.annotationLayout :=
  rfl

/-- Steps have the lines of the texts that they add. -/
theorem mem_linesOf {steps : List Step} {line : List Char} :
    line ∈ linesOf steps ↔ ∃ text, .append text ∈ steps ∧ line ∈ Text.lines text.toList := by
  rw [linesOf, List.mem_flatMap]
  constructor
  · rintro ⟨step, hstep, hline⟩
    cases step with
    | append text => exact ⟨text, hstep, hline⟩
    | appendBreak => exact absurd hline List.not_mem_nil
  · rintro ⟨text, htext, hline⟩
    exact ⟨.append text, htext, hline⟩

/-- However a comment is collected, a tag is neither missed nor invented. The comment is marked as
deprecated, or as part of the system API, exactly if a line of the texts has the tag for it, and as
part of the test API exactly if a line has that tag or gets it when the first tag of the system API
is deleted. Another way of collecting the same texts, in another order or more than once, leads to
the same annotations, which are written by the same commands. -/
theorem annotations_collect (steps : List Step) :
    ((collect steps).annotations.deprecated = true ↔
      ∃ line ∈ linesOf steps, Mark.deprecated.tag.toList <:+: line) ∧
    ((collect steps).annotations.systemApi = true ↔
      ∃ line ∈ linesOf steps, Mark.systemApi.tag.toList <:+: line) ∧
    ((collect steps).annotations.testApi = true ↔
      (∃ line ∈ linesOf steps, Mark.testApi.tag.toList <:+: line) ∨
        ∃ line ∈ linesOf steps, ∃ rest, without? Mark.systemApi.tag.toList line = some rest ∧
          Mark.testApi.tag.toList <:+: rest) ∧
    ∀ others : List Step, (∀ text, .append text ∈ others ↔ .append text ∈ steps) →
      (collect others).annotations = (collect steps).annotations ∧
        ∃ printed, (collect others).layout = (collect others).blockLayout ++ printed ∧
          (collect steps).layout = (collect steps).blockLayout ++ printed := by
  refine ⟨?_, ?_, ?_, ?_⟩
  · have hmark := contains_collect steps .deprecated
    simpa [Mark.CalledForBy, MarkSet.contains] using hmark
  · have hmark := contains_collect steps .systemApi
    simpa [Mark.CalledForBy, MarkSet.contains] using hmark
  · have hmark := contains_collect steps .testApi
    simp only [Mark.CalledForBy, true_and, and_or_left, exists_or] at hmark
    exact hmark
  · intro others htexts
    have hlines (line : List Char) : line ∈ linesOf others ↔ line ∈ linesOf steps := by
      simp only [mem_linesOf, htexts]
    have hannotations : (collect others).annotations = (collect steps).annotations := by
      refine MarkSet.eq_of_contains fun mark => ?_
      rw [Bool.eq_iff_iff]
      simp only [contains_collect, hlines]
    refine ⟨hannotations, (collect steps).annotationLayout, ?_, layout_eq_append _⟩
    rw [layout_eq_append, annotationLayout, hannotations]
    rfl

/-- Two texts in either order, one of them twice: the second has a tag of the test API only once its
other tag is deleted. -/
theorem annotations_collect_reordered :
    (∀ text, Step.append text ∈ [.append "@Test@SystemApiApi", .append "b", .append "b"]
      ↔ Step.append text ∈ [.append "b", .appendBreak, .append "@Test@SystemApiApi"]) ∧
    (collect [.append "@Test@SystemApiApi", .append "b", .append "b"]).annotations
      = { systemApi := true, testApi := true } := by
  have htexts (text : String) :
      Step.append text ∈ [.append "@Test@SystemApiApi", .append "b", .append "b"]
        ↔ Step.append text ∈ [.append "b", .appendBreak, .append "@Test@SystemApiApi"] := by
    simp only [List.mem_cons, List.not_mem_nil, or_false, Step.append.injEq, reduceCtorEq]
    tauto
  obtain ⟨-, -, -, hothers⟩ :=
    annotations_collect [.append "b", .appendBreak, .append "@Test@SystemApiApi"]
  refine ⟨htexts, (hothers _ htexts).1.trans ?_⟩
  decide

end DocComment

end JavaResources
