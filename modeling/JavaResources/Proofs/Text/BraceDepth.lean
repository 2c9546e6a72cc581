import JavaResources.Proofs.Pen.Deeper
import Mathlib.Data.List.Forall2

/-!
# Open braces

A reader who knows nothing of what lines say can still count the braces that are open before each of
them, if braces are opened at the end of a line and closed at its beginning. `Text.braceDepths?`
counts them. Lines that are indented by this count are said to follow their braces, and so do lines
one level deeper between a line that opens a brace and one that closes it (`FollowsBraces.scope`).
-/

namespace JavaResources

/-! ## Counting braces -/

namespace Text

/-- The line closes a brace: it begins with one behind its blanks. -/
def closesBrace (line : List Char) : Bool :=
  (trimLeft line).head? = some '\x7d'

/-- The line opens a brace: it ends with one. -/
def opensBrace (line : List Char) : Bool :=
  line.getLast? = some '\x7b'

/-- The depth of a line that has a number of open braces before it, unless the line closes one where
none is open. -/
def lineDepth? (opened : Nat) (line : List Char) : Option Nat :=
  if closesBrace line then if opened = 0 then none else some (opened - 1) else some opened

/-- The number of open braces behind a line of a given depth. -/
def openedAfter (depth : Nat) (line : List Char) : Nat :=
  if opensBrace line then depth + 1 else depth

/-- The depths of lines one after the other, and the number of braces that are open in the end. -/
def braceDepths? : Nat → List (List Char) → Option (List Nat × Nat)
  | opened, [] => some ([], opened)
  | opened, line :: others =>
    match lineDepth? opened line with
    | none => none
    | some depth =>
      (braceDepths? (openedAfter depth line) others).map fun (depths, final) =>
        (depth :: depths, final)

/-- A line has its depth in front of those of the others. -/
theorem braceDepths?_cons {opened depth final : Nat} {line : List Char}
    {others : List (List Char)} {depths : List Nat} :
    braceDepths? opened (line :: others) = some (depth :: depths, final) ↔
      lineDepth? opened line = some depth ∧
        braceDepths? (openedAfter depth line) others = some (depths, final) := by
  rw [braceDepths?]
  cases lineDepth? opened line with
  | none => simp
  | some found =>
      simp only [Option.map_eq_some_iff, Prod.mk.injEq, List.cons.injEq, Option.some.injEq]
      constructor
      · rintro ⟨⟨depths, final⟩, hothers, ⟨rfl, rfl⟩, rfl⟩
        exact ⟨rfl, hothers⟩
      · rintro ⟨rfl, hothers⟩
        exact ⟨(depths, final), hothers, ⟨rfl, rfl⟩, rfl⟩

/-- There is a depth for each line. -/
theorem exists_cons_of_braceDepths? {opened final : Nat} {line : List Char}
    {others : List (List Char)} {depths : List Nat}
    (h : braceDepths? opened (line :: others) = some (depths, final)) :
    ∃ depth rest, depths = depth :: rest := by
  rw [braceDepths?] at h
  split at h
  · exact nomatch h
  · obtain ⟨⟨rest, final⟩, -, hrest⟩ := Option.map_eq_some_iff.1 h
    exact ⟨_, rest, (congrArg Prod.fst hrest).symm⟩

/-- The braces that first lines leave open are open before the next ones. -/
theorem braceDepths?_append {opened middle final : Nat} {first second : List (List Char)}
    {depths more : List Nat} (hfirst : braceDepths? opened first = some (depths, middle))
    (hsecond : braceDepths? middle second = some (more, final)) :
    braceDepths? opened (first ++ second) = some (depths ++ more, final) := by
  induction first generalizing opened depths with
  | nil =>
      rw [braceDepths?, Option.some.injEq, Prod.mk.injEq] at hfirst
      obtain ⟨rfl, rfl⟩ := hfirst
      exact hsecond
  | cons line others ih =>
      obtain ⟨depth, rest, rfl⟩ := exists_cons_of_braceDepths? hfirst
      rw [braceDepths?_cons] at hfirst
      rw [List.cons_append, List.cons_append, braceDepths?_cons]
      exact ⟨hfirst.1, ih hfirst.2⟩

end Text

/-! ## Lines that follow their braces -/

namespace Indentation

open Text

variable {indentation : Indentation}

/-- The line is indented to a depth, behind which no further blank follows. -/
def StandsAt (indentation : Indentation) (depth : Nat) (line : List Char) : Prop :=
  ∃ c rest, line = indentation.lead depth ++ c :: rest ∧ isBlank c = false

/-- Of lines that have a number of open braces before them, those that are not empty are indented by
the braces that are open, and in the end a given number is. -/
def FollowsBraces (indentation : Indentation) (opened : Nat) (lines : List (List Char))
    (final : Nat) : Prop :=
  ∃ depths, braceDepths? opened (lines.filter (· ≠ [])) = some (depths, final) ∧
    List.Forall₂ indentation.StandsAt depths (lines.filter (· ≠ []))

/-- One level deeper, a line is of the next depth. -/
theorem lineDepth?_indentLine {opened depth : Nat} {line : List Char}
    (h : lineDepth? opened line = some depth) :
    lineDepth? (opened + 1) (indentation.indentLine line) = some (depth + 1) := by
  have hcloses : closesBrace (indentation.indentLine line) = closesBrace line := by
    rw [closesBrace, closesBrace, indentation.trimLeft_indentLine]
  unfold lineDepth? at h ⊢
  rw [hcloses, if_neg (Nat.succ_ne_zero opened)]
  split at h
  · next hbrace =>
      split at h
      · exact nomatch h
      · rw [Option.some.injEq] at h
        rw [if_pos hbrace, Option.some.injEq]
        omega
  · next hbrace =>
      rw [Option.some.injEq] at h
      rw [if_neg hbrace, h]

/-- A line opens a brace one level deeper as well. -/
theorem openedAfter_indentLine (depth : Nat) (line : List Char) :
    openedAfter (depth + 1) (indentation.indentLine line) = openedAfter depth line + 1 := by
  have hopens : opensBrace (indentation.indentLine line) = opensBrace line := by
    unfold indentLine
    split
    · next hline => rw [hline]
    · next hline => rw [opensBrace, List.getLast?_append_of_ne_nil _ hline, opensBrace]
  unfold openedAfter
  rw [hopens]
  split <;> rfl

/-- One level deeper, lines have their depths one higher. -/
theorem braceDepths?_map_indentLine {opened final : Nat} {lines : List (List Char)}
    {depths : List Nat} (h : braceDepths? opened lines = some (depths, final)) :
    braceDepths? (opened + 1) (lines.map indentation.indentLine)
      = some (depths.map (· + 1), final + 1) := by
  induction lines generalizing opened depths with
  | nil =>
      rw [braceDepths?, Option.some.injEq, Prod.mk.injEq] at h
      obtain ⟨rfl, rfl⟩ := h
      rfl
  | cons line others ih =>
      obtain ⟨depth, rest, rfl⟩ := exists_cons_of_braceDepths? h
      rw [braceDepths?_cons] at h
      rw [List.map_cons, List.map_cons, braceDepths?_cons, openedAfter_indentLine]
      exact ⟨lineDepth?_indentLine h.1, ih h.2⟩

/-- A line that is indented to a depth stands one deeper with one unit more. -/
theorem StandsAt.indentLine {depth : Nat} {line : List Char} (h : indentation.StandsAt depth line) :
    indentation.StandsAt (depth + 1) (indentation.indentLine line) := by
  obtain ⟨c, rest, rfl, hc⟩ := h
  refine ⟨c, rest, ?_, hc⟩
  rw [Indentation.indentLine, if_neg (by simp), ← List.append_assoc]
  rfl

/-- Empty lines stay empty. -/
theorem filter_map_indentLine (lines : List (List Char)) :
    (lines.map indentation.indentLine).filter (· ≠ [])
      = (lines.filter (· ≠ [])).map indentation.indentLine := by
  have hempty (line : List Char) : indentation.indentLine line = [] ↔ line = [] := by
    unfold indentLine
    split
    · next hline => simp [hline]
    · next hline => simp [hline]
  rw [List.filter_map]
  congr 1
  exact List.filter_congr fun line _ => by simp [hempty line]

namespace FollowsBraces

variable {opened middle final : Nat} {lines more : List (List Char)}

theorem append (h : indentation.FollowsBraces opened lines middle)
    (hmore : indentation.FollowsBraces middle more final) :
    indentation.FollowsBraces opened (lines ++ more) final := by
  obtain ⟨depths, hdepths, hlines⟩ := h
  obtain ⟨others, hothers, hmore⟩ := hmore
  refine ⟨depths ++ others, ?_, ?_⟩
  · rw [List.filter_append]
    exact braceDepths?_append hdepths hothers
  · rw [List.filter_append]
    exact List.rel_append hlines hmore

/-- Between a pair of braces lines are one level deeper. -/
theorem deepen (h : indentation.FollowsBraces opened lines final) :
    indentation.FollowsBraces (opened + 1) (lines.map indentation.indentLine) (final + 1) := by
  obtain ⟨depths, hdepths, hlines⟩ := h
  refine ⟨depths.map (· + 1), ?_, ?_⟩
  · rw [filter_map_indentLine]
    exact braceDepths?_map_indentLine hdepths
  · rw [filter_map_indentLine, List.forall₂_map_left_iff, List.forall₂_map_right_iff]
    exact hlines.imp fun _ _ => StandsAt.indentLine

/-- A blank line is passed over. -/
theorem blank (opened : Nat) : indentation.FollowsBraces opened [[]] opened :=
  ⟨[], rfl, .nil⟩

/-- A line that is not indented stands at depth zero. -/
theorem line (indentation : Indentation) {c : Char} {rest : List Char} (hc : isBlank c = false)
    (hdepth : lineDepth? opened (c :: rest) = some 0) :
    indentation.FollowsBraces opened [c :: rest] (openedAfter 0 (c :: rest)) := by
  refine ⟨[0], ?_, .cons ⟨c, rest, rfl, hc⟩ .nil⟩
  show braceDepths? opened [c :: rest] = _
  rw [braceDepths?_cons]
  exact ⟨hdepth, rfl⟩

/-- A line that does not begin with a blank begins with what it closes. -/
theorem closesBrace_cons {c : Char} (hc : isBlank c = false) (rest : List Char) :
    closesBrace (c :: rest) = decide (c = '\x7d') := by
  rw [closesBrace, trimLeft_cons hc]
  simp

/-- A line that closes no brace is as deep as braces are open. -/
theorem lineDepth?_cons {c : Char} (hc : isBlank c = false) (hcloses : c ≠ '\x7d')
    (rest : List Char) : lineDepth? opened (c :: rest) = some opened := by
  rw [lineDepth?, closesBrace_cons hc, decide_eq_false hcloses, if_neg Bool.false_ne_true]

/-- A line without braces at its ends. -/
theorem flat {c : Char} {rest : List Char} (hc : isBlank c = false) (hcloses : c ≠ '\x7d')
    (hopens : (c :: rest).getLast? ≠ some '\x7b') :
    indentation.FollowsBraces 0 [c :: rest] 0 := by
  have hline := line indentation hc (lineDepth?_cons hc hcloses rest)
  rwa [openedAfter, opensBrace, decide_eq_false hopens, if_neg Bool.false_ne_true] at hline

/-- A line that opens a brace. -/
theorem opening {c : Char} {rest : List Char} (hc : isBlank c = false) (hcloses : c ≠ '\x7d')
    (hopens : (c :: rest).getLast? = some '\x7b') :
    indentation.FollowsBraces 0 [c :: rest] 1 := by
  have hline := line indentation hc (lineDepth?_cons hc hcloses rest)
  rwa [openedAfter, opensBrace, decide_eq_true hopens, if_pos rfl] at hline

/-- A line that closes a brace. -/
theorem closing {rest : List Char} (hopens : ('\x7d' :: rest).getLast? ≠ some '\x7b') :
    indentation.FollowsBraces 1 ['\x7d' :: rest] 0 := by
  have hdepth : lineDepth? 1 ('\x7d' :: rest) = some 0 := by
    rw [lineDepth?, closesBrace_cons (by decide), if_pos (decide_eq_true rfl)]
    rfl
  have hline := line indentation (by decide) hdepth
  rwa [openedAfter, opensBrace, decide_eq_false hopens, if_neg Bool.false_ne_true] at hline

/-- Blocks of lines that each close what they open. -/
theorem flatMap {α : Type} {items : List α} {block : α → List (List Char)}
    (h : ∀ item ∈ items, indentation.FollowsBraces opened (block item) opened) :
    indentation.FollowsBraces opened (items.flatMap block) opened := by
  induction items with
  | nil => exact ⟨[], rfl, .nil⟩
  | cons item others ih =>
      rw [List.flatMap_cons]
      exact (h item List.mem_cons_self).append
        (ih fun other hother => h other (List.mem_cons_of_mem item hother))

/-- A head that opens a brace, a body one level deeper and an end that closes the brace. -/
theorem scope {head rest : List Char} (hhead : indentation.FollowsBraces 0 [head] 1)
    (h : indentation.FollowsBraces 0 lines 0) (hopens : ('\x7d' :: rest).getLast? ≠ some '\x7b') :
    indentation.FollowsBraces 0 (head :: lines.map indentation.indentLine ++ ['\x7d' :: rest]) 0 :=
  (hhead.append h.deepen).append (closing hopens)

end FollowsBraces

end Indentation

end JavaResources
