import JavaResources.Text.Blank
import JavaResources.Text.Lines
import JavaResources.Text.Search
import Mathlib.Data.List.DropRight
import Mathlib.Data.List.Infix
import Mathlib.Data.List.TakeWhile

/-!
# Words in a text

Where a word can stand in a text that is put together from parts. A character that the word does not
have keeps its occurrences apart (`infix_append_cons_iff`), so a word without blanks occurs in a
text as it occurs in the trimmed text, and a word without line feeds occurs in one of the lines.
`infix_of_without?` says that deleting a word which begins with a sign of its own leaves the
occurrences of another word with that sign alone.
-/

namespace JavaResources.Text

/-! ## A character that is not in the word -/

/-- A word without a character ends before it. -/
theorem prefix_of_prefix_append_cons {word before after : List Char} {c : Char} (hc : c ∉ word)
    (h : word <+: before ++ c :: after) : word <+: before := by
  rcases List.prefix_or_prefix_of_prefix h (List.prefix_append before (c :: after)) with
    hword | ⟨rest, rfl⟩
  · exact hword
  · have hrest : rest <+: c :: after := (List.prefix_append_right_inj before).1 h
    cases rest with
    | nil => rw [List.append_nil]
    | cons d rest =>
        obtain ⟨rfl, -⟩ := List.cons_prefix_cons.1 hrest
        exact absurd (List.mem_append_right before List.mem_cons_self) hc

/-- A word without a character stands on one side of it. -/
theorem infix_append_cons_iff {word : List Char} {c : Char} (hne : word ≠ []) (hc : c ∉ word)
    (before after : List Char) :
    word <:+: before ++ c :: after ↔ word <:+: before ∨ word <:+: after := by
  induction before with
  | nil =>
      have hstart : ¬ word <+: c :: after := by
        intro h
        have hnil : word <+: [] := prefix_of_prefix_append_cons hc h
        exact hne (List.prefix_nil.1 hnil)
      rw [List.nil_append, List.infix_cons_iff, List.infix_nil]
      simp [hstart, hne]
  | cons d before ih =>
      have hstart : word <+: (d :: before) ++ c :: after ↔ word <+: d :: before :=
        ⟨prefix_of_prefix_append_cons hc, fun h => h.trans (List.prefix_append _ _)⟩
      rw [List.cons_append] at hstart ⊢
      rw [List.infix_cons_iff, ih, hstart, List.infix_cons_iff, or_assoc]

/-- A word does not begin among characters that are not its first. -/
theorem cons_infix_append_iff {sign : Char} {letters left : List Char} (hleft : sign ∉ left)
    (text : List Char) : sign :: letters <:+: left ++ text ↔ sign :: letters <:+: text := by
  induction left with
  | nil => rfl
  | cons c left ih =>
      rw [List.mem_cons, not_or] at hleft
      have hstart : ¬ sign :: letters <+: c :: (left ++ text) := fun h =>
        hleft.1 (List.cons_prefix_cons.1 h).1
      rw [List.cons_append, List.infix_cons_iff, ih hleft.2]
      simp [hstart]

/-- A word does not reach into characters that it does not have. -/
theorem infix_append_iff {word right : List Char} (hne : word ≠ []) (hright : ∀ c ∈ right, c ∉ word)
    (text : List Char) : word <:+: text ++ right ↔ word <:+: text := by
  induction right generalizing text with
  | nil => rw [List.append_nil]
  | cons c right ih =>
      have hrest : ¬ word <:+: right := by
        intro h
        rw [← List.nil_append right, ih fun d hd => hright d (List.mem_cons_of_mem c hd)] at h
        exact hne (List.infix_nil.1 h)
      rw [infix_append_cons_iff hne (hright c List.mem_cons_self)]
      simp [hrest]

/-! ## Lines -/

/-- A word without the separator stands in one of the pieces that are joined. -/
theorem infix_joined_iff {word : List Char} {separator : Char} (hne : word ≠ [])
    (hword : separator ∉ word) (pieces : List (List Char)) :
    word <:+: joined separator pieces ↔ ∃ piece ∈ pieces, word <:+: piece := by
  induction pieces with
  | nil => simp [joined, hne]
  | cons piece others ih =>
      cases others with
      | nil => simp [joined]
      | cons next others =>
          show word <:+: piece ++ separator :: joined separator (next :: others) ↔ _
          rw [infix_append_cons_iff hne hword, ih]
          simp

/-- A word without line feeds stands in one of the lines of a text. -/
theorem infix_iff_exists_line {word : List Char} (hne : word ≠ []) (hword : '\n' ∉ word)
    (text : List Char) : word <:+: text ↔ ∃ line ∈ lines text, word <:+: line := by
  rw [← infix_joined_iff hne hword, lines, joined_pieces]

/-! ## Trimming -/

/-- Trimming takes blanks away at both ends. -/
theorem exists_eq_trim (text : List Char) :
    ∃ left right, text = left ++ trim text ++ right ∧
      (∀ c ∈ left, isBlank c = true) ∧ ∀ c ∈ right, isBlank c = true := by
  have hleft : text = text.takeWhile isBlank ++ trimLeft text :=
    (List.takeWhile_append_dropWhile).symm
  have hright :
      trimLeft text = trim text ++ ((trimLeft text).reverse.takeWhile isBlank).reverse := by
    rw [trim, trimRight, ← List.reverse_append, List.takeWhile_append_dropWhile,
      List.reverse_reverse]
  refine ⟨text.takeWhile isBlank, ((trimLeft text).reverse.takeWhile isBlank).reverse, ?_, ?_, ?_⟩
  · rw [List.append_assoc, ← hright]
    exact hleft
  · exact fun c hc => List.mem_takeWhile_imp hc
  · exact fun c hc => List.mem_takeWhile_imp (List.mem_reverse.1 hc)

/-- Removing the blanks at the end is dropping them from the right. -/
theorem trimRight_eq (text : List Char) : trimRight text = text.rdropWhile isBlank :=
  rfl

/-- Trimming leaves no characters that were not there. -/
theorem mem_of_mem_trim {c : Char} {text : List Char} (h : c ∈ trim text) : c ∈ text := by
  obtain ⟨left, right, htext, -, -⟩ := exists_eq_trim text
  rw [htext]
  exact List.mem_append_left right (List.mem_append_right left h)

/-- A trimmed text does not begin with a blank. -/
theorem trimLeft_trim (text : List Char) : trimLeft (trim text) = trim text := by
  have hprefix : trim text <+: trimLeft text := List.rdropWhile_prefix isBlank _
  cases htrim : trim text with
  | nil => rfl
  | cons c rest =>
      -- What the trimmed text begins with is what the text begins with behind its blanks.
      rw [htrim] at hprefix
      obtain ⟨more, hmore⟩ := hprefix
      have hfirst := List.head?_dropWhile_not isBlank text
      rw [← trimLeft, ← hmore] at hfirst
      exact trimLeft_cons (by simpa using hfirst) rest

/-- Trimming a second time changes nothing. -/
theorem trim_trim (text : List Char) : trim (trim text) = trim text := by
  rw [trim, trimLeft_trim, trim, trimRight_eq, trimRight_eq, List.rdropWhile_idempotent]

/-- A blank at the end of a text is trimmed with the others. -/
theorem trim_concat {c : Char} (hc : isBlank c = true) (text : List Char) :
    trim (text ++ [c]) = trim text := by
  rw [trim, trim, trimLeft, trimLeft, List.dropWhile_append]
  split
  · next hblank =>
      rw [List.dropWhile_cons_of_pos hc, List.isEmpty_iff.1 hblank]
      rfl
  · rw [trimRight_eq, trimRight_eq, List.rdropWhile_concat_pos isBlank _ c hc]

/-- Trimming takes away what stands around a text without blanks. -/
theorem trim_padded {before text after : List Char} (hbefore : ∀ c ∈ before, isBlank c = true)
    (hafter : ∀ c ∈ after, isBlank c = true) (hne : text ≠ [])
    (htext : ∀ c ∈ text, isBlank c = false) : trim (before ++ text ++ after) = text := by
  have hleft : trimLeft (before ++ text ++ after) = text ++ after := by
    rw [List.append_assoc, trimLeft, List.dropWhile_append_of_pos hbefore]
    obtain ⟨c, rest, rfl⟩ := List.exists_cons_of_ne_nil hne
    exact trimLeft_cons (htext c List.mem_cons_self) (rest ++ after)
  have hlast : text.reverse.dropWhile isBlank = text.reverse := by
    obtain ⟨c, rest, hreverse⟩ := List.exists_cons_of_ne_nil (List.reverse_ne_nil_iff.2 hne)
    have hc : c ∈ text := List.mem_reverse.1 (hreverse ▸ List.mem_cons_self)
    rw [hreverse]
    exact trimLeft_cons (htext c hc) rest
  rw [trim, hleft, trimRight, List.reverse_append,
    List.dropWhile_append_of_pos fun c hc => hafter c (List.mem_reverse.1 hc), hlast,
    List.reverse_reverse]

/-! ## Deletion -/

section Deletion

variable {sign : Char} {letters : List Char}

/-- What stands before a word does not change how it is deleted. -/
theorem without?_append {left : List Char} (hleft : sign ∉ left) (text : List Char) :
    without? (sign :: letters) (left ++ text)
      = (without? (sign :: letters) text).map (left ++ ·) := by
  induction left with
  | nil => simp
  | cons c left ih =>
      rw [List.mem_cons, not_or] at hleft
      have hstart : (sign :: letters).isPrefixOf (c :: (left ++ text)) = false := by
        simp [List.isPrefixOf, hleft.1]
      rw [List.cons_append, without?, hstart, if_neg Bool.false_ne_true, ih hleft.2,
        Option.map_map]
      rfl

/-- What stands behind a word does not change how it is deleted. -/
theorem without?_append_right {right : List Char} (hright : ∀ c ∈ right, c ∉ sign :: letters)
    (text : List Char) :
    without? (sign :: letters) (text ++ right)
      = (without? (sign :: letters) text).map (· ++ right) := by
  have hne : sign :: letters ≠ [] := List.cons_ne_nil sign letters
  induction text with
  | nil =>
      have hrest : occursIn (sign :: letters) right = false := by
        rw [Bool.eq_false_iff, ne_eq, occursIn_iff_infix]
        intro h
        rw [← List.nil_append right, infix_append_iff hne hright] at h
        exact hne (List.infix_nil.1 h)
      rw [← isSome_without?, Option.isSome_eq_false_iff, Option.isNone_iff_eq_none] at hrest
      rw [List.nil_append, hrest]
      rfl
  | cons c text ih =>
      have hstart : (sign :: letters).isPrefixOf (c :: (text ++ right))
          = (sign :: letters).isPrefixOf (c :: text) := by
        rw [Bool.eq_iff_iff, List.isPrefixOf_iff_prefix, List.isPrefixOf_iff_prefix]
        cases right with
        | nil => rw [List.append_nil]
        | cons d right =>
            rw [← List.cons_append]
            refine ⟨prefix_of_prefix_append_cons (hright d List.mem_cons_self), fun h => ?_⟩
            exact h.trans (List.prefix_append (c :: text) (d :: right))
      rw [List.cons_append, without?, without?, hstart, ih]
      split
      · next h =>
          have hlength := (List.isPrefixOf_iff_prefix.1 h).length_le
          rw [← List.cons_append, List.drop_append_of_le_length hlength]
          rfl
      · rw [Option.map_map, Option.map_map]
        rfl

/-- Deleting a word leaves every occurrence of another that begins with the same sign, if neither
has the sign elsewhere and neither begins with the other. -/
theorem infix_of_without? {others text rest : List Char} (hletters : sign ∉ letters)
    (hothers : sign ∉ others) (hfirst : ¬ letters <+: others) (hsecond : ¬ others <+: letters)
    (hrest : without? (sign :: letters) text = some rest) (h : sign :: others <:+: text) :
    sign :: others <:+: rest := by
  obtain ⟨before, after, rfl, rfl⟩ := exists_of_without? hrest
  clear hrest
  induction before with
  | nil =>
      rw [List.nil_append, List.cons_append, List.infix_cons_iff] at h
      rcases h with h | h
      · -- Both words would begin here, and one of them would be the beginning of the other.
        have hstart := (List.cons_prefix_cons.1 h).2
        rcases List.prefix_or_prefix_of_prefix hstart (List.prefix_append letters after) with h | h
        · exact absurd h hsecond
        · exact absurd h hfirst
      · rwa [cons_infix_append_iff hletters] at h
  | cons c before ih =>
      rw [List.append_assoc, List.cons_append, List.infix_cons_iff] at h
      rw [List.cons_append]
      rcases h with h | h
      · -- The other word begins before the deleted one, so it ends before its sign.
        obtain ⟨rfl, hstart⟩ := List.cons_prefix_cons.1 h
        have hbefore : others <+: before := prefix_of_prefix_append_cons hothers hstart
        have hrest : sign :: others <+: sign :: (before ++ after) :=
          List.cons_prefix_cons.2 ⟨rfl, hbefore.trans (List.prefix_append before after)⟩
        exact hrest.isInfix
      · exact List.infix_cons (ih (by rwa [List.append_assoc]))

end Deletion

end JavaResources.Text
