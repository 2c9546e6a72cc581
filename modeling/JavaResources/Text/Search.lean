/-!
# Finding a word in a text

`without?` deletes the first occurrence of a word from a text and `occursIn` tells whether there is
one. The two agree: something can be deleted exactly if the word occurs (`isSome_without?`), and
then it is one occurrence that goes (`exists_of_without?`).
-/

namespace JavaResources.Text

/-- The word stands somewhere in the text. -/
def occursIn (word : List Char) : List Char → Bool
  | [] => word.isEmpty
  | c :: rest => word.isPrefixOf (c :: rest) || occursIn word rest

/-- The text with the first occurrence of the word deleted, if there is one. -/
def without? (word : List Char) : List Char → Option (List Char)
  | [] => if word.isEmpty then some [] else none
  | c :: rest =>
    if word.isPrefixOf (c :: rest) then some ((c :: rest).drop word.length)
    else (without? word rest).map (c :: ·)

/-- A word occurs exactly if it is a block of consecutive characters of the text. -/
theorem occursIn_iff_infix (word text : List Char) :
    occursIn word text = true ↔ word <:+: text := by
  induction text with
  | nil => simp [occursIn, List.infix_nil]
  | cons c rest ih =>
      rw [occursIn, Bool.or_eq_true, ih, List.isPrefixOf_iff_prefix, List.infix_cons_iff]

/-- Something can be deleted exactly if the word occurs. -/
theorem isSome_without? (word text : List Char) :
    (without? word text).isSome = occursIn word text := by
  induction text with
  | nil => by_cases hword : word.isEmpty <;> simp [without?, occursIn, hword]
  | cons c rest ih =>
      by_cases hstart : word.isPrefixOf (c :: rest) <;> simp [without?, occursIn, hstart, ih]

/-- What is deleted is one occurrence of the word and nothing else. -/
theorem exists_of_without? {word text rest : List Char} (hrest : without? word text = some rest) :
    ∃ before after, text = before ++ word ++ after ∧ rest = before ++ after := by
  induction text generalizing rest with
  | nil =>
      by_cases hword : word.isEmpty
      · refine ⟨[], [], ?_, ?_⟩ <;> simp_all [without?]
      · simp [without?, hword] at hrest
  | cons c tail ih =>
      by_cases hstart : word.isPrefixOf (c :: tail)
      · obtain ⟨after, hafter⟩ := List.isPrefixOf_iff_prefix.1 hstart
        refine ⟨[], after, by simp [hafter], ?_⟩
        simp only [without?, hstart, if_true, Option.some.injEq] at hrest
        rw [← hrest, ← hafter]
        simp
      · simp only [without?, hstart, Bool.false_eq_true, if_false, Option.map_eq_some_iff] at hrest
        obtain ⟨left, hleft, rfl⟩ := hrest
        obtain ⟨before, after, htext, hrest⟩ := ih hleft
        exact ⟨c :: before, after, by simp [htext], by simp [hrest]⟩

end JavaResources.Text
