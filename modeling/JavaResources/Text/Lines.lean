/-!
# Cutting text at a separator

`pieces` cuts a text at every occurrence of a separator character and `joined` puts the pieces back
together. A text with `n` separators has `n + 1` pieces, some of which may be empty, so a text
always has at least one piece.
-/

namespace JavaResources.Text

/-- The pieces of a text between the occurrences of a separator. -/
def pieces (separator : Char) : List Char → List (List Char)
  | [] => [[]]
  | c :: rest =>
    if c = separator then [] :: pieces separator rest
    else
      match pieces separator rest with
      | [] => [[c]]
      | piece :: others => (c :: piece) :: others

/-- Pieces put together again with the separator between them. -/
def joined (separator : Char) : List (List Char) → List Char
  | [] => []
  | [piece] => piece
  | piece :: others => piece ++ separator :: joined separator others

/-- The lines of a text: its pieces between line feeds. -/
def lines (text : List Char) : List (List Char) :=
  pieces '\n' text

/-- Every text has at least one piece. -/
theorem pieces_ne_nil (separator : Char) (text : List Char) : pieces separator text ≠ [] := by
  cases text with
  | nil => simp [pieces]
  | cons c rest =>
      simp only [pieces]
      split
      · simp
      · split <;> simp

/-- A text has one piece more than it has separators. -/
theorem length_pieces (separator : Char) (text : List Char) :
    (pieces separator text).length = text.count separator + 1 := by
  induction text with
  | nil => rfl
  | cons c rest ih =>
      rw [pieces, List.count_cons]
      by_cases hc : c = separator
      · rw [if_pos hc, if_pos (beq_iff_eq.2 hc), List.length_cons, ih]
      · rw [if_neg hc, if_neg (fun h => hc (beq_iff_eq.1 h)), Nat.add_zero, ← ih]
        cases hpieces : pieces separator rest with
        | nil => exact absurd hpieces (pieces_ne_nil separator rest)
        | cons piece others => rfl

/-- Joining the pieces of a text gives the text back. -/
theorem joined_pieces (separator : Char) (text : List Char) :
    joined separator (pieces separator text) = text := by
  induction text with
  | nil => rfl
  | cons c rest ih =>
      simp only [pieces]
      split
      · next heq =>
          cases hpieces : pieces separator rest with
          | nil => exact absurd hpieces (pieces_ne_nil separator rest)
          | cons piece others =>
              rw [hpieces] at ih
              simp only [joined, ih, heq, List.nil_append]
      · cases hpieces : pieces separator rest with
        | nil => exact absurd hpieces (pieces_ne_nil separator rest)
        | cons piece others =>
            rw [hpieces] at ih
            cases others <;> simp_all [joined]

/-- No piece holds the separator. -/
theorem not_mem_of_mem_pieces {separator : Char} {text : List Char} :
    ∀ piece ∈ pieces separator text, separator ∉ piece := by
  induction text with
  | nil => simp [pieces]
  | cons c rest ih =>
      intro piece hpiece
      simp only [pieces] at hpiece
      split at hpiece
      · rcases List.mem_cons.1 hpiece with rfl | hmem
        · simp
        · exact ih piece hmem
      · next hne =>
          cases hpieces : pieces separator rest with
          | nil => exact absurd hpieces (pieces_ne_nil separator rest)
          | cons first others =>
              rw [hpieces] at hpiece
              rcases List.mem_cons.1 hpiece with rfl | hmem
              · have := ih first (by simp [hpieces])
                simp only [List.mem_cons, not_or]
                exact ⟨fun h => hne h.symm, this⟩
              · exact ih piece (by simp [hpieces, hmem])

/-- What is in front of the first piece is in front of the pieces joined. -/
theorem joined_append_cons (separator : Char) (text piece : List Char)
    (others : List (List Char)) :
    joined separator ((text ++ piece) :: others) = text ++ joined separator (piece :: others) := by
  cases others with
  | nil => rfl
  | cons next others => exact List.append_assoc text piece _

/-- An empty piece in front of others is a separator. -/
theorem joined_nil_cons (separator : Char) {pieces : List (List Char)} (h : pieces ≠ []) :
    joined separator ([] :: pieces) = separator :: joined separator pieces := by
  cases pieces with
  | nil => contradiction
  | cons piece others => rfl

/-- Pieces that are joined stand behind the first one, each after a separator. -/
theorem joined_cons (separator : Char) (piece : List Char) (others : List (List Char)) :
    joined separator (piece :: others) = piece ++ others.flatMap (separator :: ·) := by
  induction others generalizing piece with
  | nil => exact (List.append_nil piece).symm
  | cons next others ih =>
      show piece ++ separator :: joined separator (next :: others) = _
      rw [ih]
      rfl

/-- Pieces that are joined stand in front of the last one, each before a separator. -/
theorem joined_concat (separator : Char) (pieces : List (List Char)) (last : List Char) :
    joined separator (pieces ++ [last]) = pieces.flatMap (· ++ [separator]) ++ last := by
  induction pieces with
  | nil => rfl
  | cons piece others ih =>
      have hjoined : joined separator (piece :: (others ++ [last]))
          = piece ++ separator :: joined separator (others ++ [last]) := by
        cases others <;> rfl
      rw [List.cons_append, hjoined, ih]
      simp

/-- A separator behind pieces that each stand after one is a separator in front of pieces that each
stand before one. -/
theorem flatMap_cons_concat (separator : Char) (pieces : List (List Char)) :
    pieces.flatMap (separator :: ·) ++ [separator]
      = separator :: pieces.flatMap (· ++ [separator]) := by
  have hconcat := joined_concat separator ([] :: pieces) []
  rw [List.cons_append, joined_cons] at hconcat
  simpa using hconcat

/-- The pieces of two texts with a separator between them. -/
theorem pieces_append_cons (separator : Char) (before after : List Char) :
    pieces separator (before ++ separator :: after)
      = pieces separator before ++ pieces separator after := by
  induction before with
  | nil => simp [pieces]
  | cons c before ih =>
      rw [List.cons_append, pieces, pieces, ih]
      split
      · rfl
      · cases hpieces : pieces separator before with
        | nil => exact absurd hpieces (pieces_ne_nil separator before)
        | cons piece others => rfl

/-- A text without the separator is one piece. -/
theorem pieces_of_not_mem {separator : Char} {text : List Char} (h : separator ∉ text) :
    pieces separator text = [text] := by
  induction text with
  | nil => rfl
  | cons c rest ih =>
      rw [List.mem_cons, not_or] at h
      rw [pieces, if_neg (Ne.symm h.1), ih h.2]

/-- Pieces without the separator are the pieces of the text that they are joined to. -/
theorem pieces_joined {separator : Char} {texts : List (List Char)} (hne : texts ≠ [])
    (h : ∀ text ∈ texts, separator ∉ text) :
    pieces separator (joined separator texts) = texts := by
  induction texts with
  | nil => contradiction
  | cons text others ih =>
      have htext := pieces_of_not_mem (h text List.mem_cons_self)
      cases others with
      | nil => exact htext
      | cons next others =>
          have hothers := ih (List.cons_ne_nil next others) fun other hother =>
            h other (List.mem_cons_of_mem text hother)
          show pieces separator (text ++ separator :: joined separator (next :: others)) = _
          rw [pieces_append_cons, htext, hothers]
          rfl

/-- Texts without the separator are the pieces in front of the separators behind them. -/
theorem pieces_flatMap_concat {separator : Char} {texts : List (List Char)}
    (h : ∀ text ∈ texts, separator ∉ text) :
    pieces separator (texts.flatMap (· ++ [separator])) = texts ++ [[]] := by
  rw [← List.append_nil (texts.flatMap _), ← joined_concat]
  refine pieces_joined (by simp) fun text htext => ?_
  rw [List.mem_append, List.mem_singleton] at htext
  rcases htext with htext | rfl
  · exact h text htext
  · exact List.not_mem_nil

end JavaResources.Text
