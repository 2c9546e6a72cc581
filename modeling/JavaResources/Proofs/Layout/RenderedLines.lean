import JavaResources.Proofs.Layout.Rendering
import JavaResources.Proofs.Text.Digits

/-!
# The lines of a rendering

The text of a member cut into its lines, with one lemma for each kind of member. The lines of a
class are its first line, the lines of its members one level deeper, and a brace; methods and arrays
have statements or rows in the place of members. What is written on a line must not end it.
-/

namespace JavaResources

variable (indentation : Indentation)

/-- No comment is no text. -/
theorem DocComment.rendering_empty : ({} : DocComment).rendering = [] :=
  rfl

/-! ## Fields -/

/-- A value stays on its line if no string goes on to the next one. -/
theorem Constant.lineFeed_not_mem_text {value : Constant}
    (h : ∀ text, value = .string text → '\n' ∉ text.toList) : '\n' ∉ value.text.toList := by
  cases value with
  | int value =>
      rw [text, String.toList_ofList]
      intro hfeed
      rcases Text.mem_decimal hfeed with hfeed | hfeed
      · exact absurd hfeed (by decide)
      · exact absurd hfeed (by decide)
  | resource id => exact fun hfeed => absurd (ResourceId.mem_text hfeed) (by decide)
  | string text =>
      have htext := h text rfl
      simpa [Constant.text] using htext

/-- The line of a constant field. -/
def Field.line (finalFields : Bool) (field : Field) : List Char :=
  ("public static " ++ (if finalFields then "final " else "") ++ field.value.javaType ++ " "
    ++ field.name ++ "=" ++ field.value.text ++ ";").toList

/-- The line of a field begins with a letter. -/
theorem Field.exists_line_cons (finalFields : Bool) (field : Field) :
    ∃ rest, field.line finalFields = 'p' :: rest := by
  simp [line]

/-- The line of a field ends with a semicolon. -/
theorem Field.getLast?_line (finalFields : Bool) (field : Field) :
    (field.line finalFields).getLast? = some ';' := by
  rw [line, String.toList_append]
  exact List.getLast?_concat

/-- A field without a comment is one line. -/
theorem Field.lines_rendering (finalFields : Bool) {field : Field} (hcomment : field.comment = {})
    (hname : '\n' ∉ field.name.toList) (hvalue : '\n' ∉ field.value.text.toList) :
    Text.lines (field.rendering finalFields) = [field.line finalFields] := by
  have hrendering : field.rendering finalFields = field.line finalFields := by
    rw [rendering, hcomment, DocComment.rendering_empty, List.nil_append, line]
  have htype : '\n' ∉ field.value.javaType.toList := by
    cases field.value <;> simp [Constant.javaType]
  have hfinal : '\n' ∉ (if finalFields then "final " else "").toList := by
    cases finalFields <;> decide
  rw [hrendering]
  refine Text.pieces_of_not_mem ?_
  simp [line, hname, hvalue, htype, hfinal]

/-! ## Arrays -/

namespace ResourceArray

/-- The line that an array begins with. -/
def headLine (name : String) : List Char :=
  ("public static final int[] " ++ name ++ "=\x7b").toList

/-- The first line of an array begins with a letter. -/
theorem exists_headLine_cons (name : String) : ∃ rest, headLine name = 'p' :: rest := by
  simp [headLine]

/-- The first line of an array ends with a brace behind a sign. -/
theorem exists_headLine_append (name : String) : ∃ text, headLine name = text ++ ['=', '\x7b'] := by
  rw [headLine, String.toList_append]
  exact ⟨_, rfl⟩

/-- The lines of the rows of an array. A comma ends each line but the last. -/
def rowLines : List (List ResourceId) → List (List Char)
  | [] => []
  | row :: others => (rowText row ++ if others.isEmpty then [] else ", ".toList) :: rowLines others

/-- The text of the rows is made of their lines. -/
theorem rowsText_eq_joined (rows : List (List ResourceId)) :
    rowsText rows = Text.joined '\n' ([] :: rowLines rows) := by
  rw [Text.joined_cons, List.nil_append]
  induction rows with
  | nil => rfl
  | cons row others ih => simp [rowsText, rowLines, ih]

/-- The lines of the rows make up one row of all identifiers. -/
theorem flatten_rowLines (elements : List ResourceId) :
    (rowLines (rows elements)).flatten = rowText elements := by
  induction elements using rows.induct with
  | case1 first second third fourth others ih =>
      rw [rows, rowLines, List.flatten_cons, ih, isEmpty_rows]
      cases others <;> simp [rowText]
  | case2 => rfl
  | case3 last hlong hempty =>
      rw [rows.eq_3 last hlong hempty]
      simp [rowLines]

/-- A row is its first identifier and, behind a comma, the row of the others. -/
theorem rowText_cons (id : ResourceId) (others : List ResourceId) :
    rowText (id :: others)
      = id.text.toList ++ if others = [] then [] else ", ".toList ++ rowText others := by
  cases others <;> simp [rowText]

/-- The text of a row with elements begins with the sign of a number. -/
theorem exists_rowText_cons (id : ResourceId) (others : List ResourceId) :
    ∃ rest, rowText (id :: others) = '0' :: rest := by
  rw [rowText_cons, id.toList_text]
  exact ⟨_, rfl⟩

/-- The characters of a row are those of identifiers and of what is between them. -/
theorem mem_rowText {row : List ResourceId} :
    ∀ c ∈ rowText row, c ∈ "0123456789abcdefx, ".toList := by
  have hid : "0123456789abcdefx".toList ⊆ "0123456789abcdefx, ".toList := by decide
  have hcomma : ", ".toList ⊆ "0123456789abcdefx, ".toList := by decide
  induction row with
  | nil => exact fun c hc => absurd hc List.not_mem_nil
  | cons id others ih =>
      intro c hc
      rw [rowText_cons, List.mem_append] at hc
      rcases hc with hc | hc
      · exact hid (ResourceId.mem_text hc)
      · split at hc
        · exact absurd hc List.not_mem_nil
        · rw [List.mem_append] at hc
          exact hc.elim (@hcomma c) (ih c)

/-- The characters of the lines of rows are those of the rows. -/
theorem mem_rowLines {rows : List (List ResourceId)} :
    ∀ line ∈ rowLines rows, ∀ c ∈ line, c ∈ "0123456789abcdefx, ".toList := by
  have hcomma : ", ".toList ⊆ "0123456789abcdefx, ".toList := by decide
  induction rows with
  | nil => exact fun line hline => absurd hline List.not_mem_nil
  | cons row others ih =>
      intro line hline
      rw [rowLines, List.mem_cons] at hline
      rcases hline with rfl | hline
      · intro c hc
        rw [List.mem_append] at hc
        rcases hc with hc | hc
        · exact mem_rowText c hc
        · split at hc
          · exact absurd hc List.not_mem_nil
          · exact hcomma hc
      · exact ih line hline

/-- No row is empty. -/
theorem ne_nil_of_mem_rows {elements : List ResourceId} :
    ∀ row ∈ rows elements, row ≠ [] := by
  induction elements using rows.induct with
  | case1 first second third fourth others ih =>
      intro row hrow
      rw [rows, List.mem_cons] at hrow
      rcases hrow with rfl | hrow
      · exact List.cons_ne_nil _ _
      · exact ih row hrow
  | case2 => exact fun row hrow => absurd hrow List.not_mem_nil
  | case3 last hlong hempty =>
      intro row hrow
      rw [rows.eq_3 last hlong hempty, List.mem_singleton] at hrow
      rw [hrow]
      exact hempty

/-- The lines of an array begin with the sign of a number. -/
theorem exists_cons_of_mem_rowLines {rows : List (List ResourceId)} (h : ∀ row ∈ rows, row ≠ []) :
    ∀ line ∈ rowLines rows, ∃ rest, line = '0' :: rest := by
  induction rows with
  | nil => exact fun line hline => absurd hline List.not_mem_nil
  | cons row others ih =>
      intro line hline
      rw [rowLines, List.mem_cons] at hline
      rcases hline with rfl | hline
      · obtain ⟨id, ids, rfl⟩ := List.exists_cons_of_ne_nil (h row List.mem_cons_self)
        obtain ⟨rest, hrest⟩ := exists_rowText_cons id ids
        exact ⟨_, congrArg (· ++ _) hrest⟩
      · exact ih (fun other hother => h other (List.mem_cons_of_mem row hother)) line hline

/-- No row ends its line. -/
theorem lineFeed_not_mem_rowLines (rows : List (List ResourceId)) :
    ∀ line ∈ rowLines rows, '\n' ∉ line :=
  fun line hline h => absurd (mem_rowLines line hline '\n' h) (by decide)

/-- An array without a comment has a line for its head, one for each row, and a last one. -/
theorem lines_rendering {array : ResourceArray} (hcomment : array.comment = {})
    (hname : '\n' ∉ array.name.toList) :
    Text.lines (array.rendering indentation)
      = headLine array.name :: (rowLines (rows array.elements)).map indentation.indentLine
        ++ ["\x7d;".toList] := by
  have hrows := lineFeed_not_mem_rowLines (rows array.elements)
  have hbody : headLine array.name ++ indentation.indentLines (rowsText (rows array.elements))
      = Text.joined '\n' (headLine array.name
          :: (rowLines (rows array.elements)).map indentation.indentLine) := by
    rw [rowsText_eq_joined, indentation.indentLines_joined (List.cons_ne_nil _ _) (by simpa),
      List.map_cons, Text.joined_cons, Text.joined_cons]
    rfl
  have hrendering : array.rendering indentation
      = Text.joined '\n' (headLine array.name
          :: (rowLines (rows array.elements)).map indentation.indentLine)
        ++ '\n' :: "\x7d;".toList := by
    rw [rendering, hcomment, DocComment.rendering_empty, List.nil_append, ← hbody]
    rfl
  rw [hrendering, Text.lines, Text.pieces_append_cons, Text.pieces_joined (List.cons_ne_nil _ _)]
  · rfl
  · intro line hline
    rw [List.mem_cons, List.mem_map] at hline
    rcases hline with rfl | ⟨line, hline, rfl⟩
    · simp [headLine, hname]
    · exact indentation.lineFeed_not_mem_indentLine (hrows line hline)

end ResourceArray

/-! ## Methods -/

/-- A method has a line for its head, one for each statement, and a last one. -/
theorem Method.lines_rendering {method : Method} (hsignature : '\n' ∉ method.signature.toList)
    (hstatements : ∀ statement ∈ method.statements, '\n' ∉ statement.toList) :
    Text.lines (method.rendering indentation)
      = (method.signature ++ " \x7b").toList
        :: (method.statements.map String.toList).map indentation.indentLine ++ ["\x7d".toList] := by
  have hbody : method.statements.flatMap (fun statement => statement.toList ++ ['\n'])
      = Text.joined '\n' (method.statements.map String.toList ++ [[]]) := by
    rw [Text.joined_concat, List.append_nil, List.flatMap_map]
  have hlines : ∀ line ∈ method.statements.map String.toList, '\n' ∉ line := by
    simpa using hstatements
  have hindented : indentation.indentLines
        (method.statements.flatMap fun statement => statement.toList ++ ['\n']) ++ "\x7d".toList
      = Text.joined '\n' ((method.statements.map String.toList).map indentation.indentLine
          ++ ["\x7d".toList]) := by
    rw [hbody, indentation.indentLines_joined (by simp), List.map_append, Text.joined_concat]
    · have hlast : [([] : List Char)].map indentation.indentLine = [[]] := rfl
      rw [hlast, Text.joined_concat, List.append_nil]
    · intro line hline
      rw [List.mem_append, List.mem_singleton] at hline
      rcases hline with hline | rfl
      · exact hlines line hline
      · exact List.not_mem_nil
  have hrendering : method.rendering indentation
      = (method.signature ++ " \x7b").toList ++ '\n' :: Text.joined '\n'
          ((method.statements.map String.toList).map indentation.indentLine
            ++ ["\x7d".toList]) := by
    rw [rendering, List.append_assoc, hindented]
    simp
  have hhead : '\n' ∉ (method.signature ++ " \x7b").toList := by simp [hsignature]
  rw [hrendering, Text.lines, Text.pieces_append_cons, Text.pieces_of_not_mem hhead,
    Text.pieces_joined (by simp)]
  · rfl
  · intro line hline
    rw [List.mem_append, List.mem_map, List.mem_singleton] at hline
    rcases hline with ⟨line, hline, rfl⟩ | rfl
    · exact indentation.lineFeed_not_mem_indentLine (hlines line hline)
    · decide

/-! ## Classes -/

/-- The first line of a class begins with a letter. -/
theorem JavaClass.exists_headLine_cons (name : String) (isStatic : Bool) :
    ∃ rest, (headLine name isStatic).toList = 'p' :: rest := by
  simp [headLine]

/-- The first line of a class ends with a brace behind a blank. -/
theorem JavaClass.exists_headLine_append (name : String) (isStatic : Bool) :
    ∃ text, (headLine name isStatic).toList = text ++ [' ', '\x7b'] := by
  rw [headLine, String.toList_append]
  exact ⟨_, rfl⟩

/-- The lines of the members of a class, each as it is on its own. -/
def Member.bodyLines (finalFields : Bool) (members : List Member) : List (List Char) :=
  members.flatMap fun member => Text.lines (member.rendering indentation finalFields)

/-- The members of a class have their lines one level deeper, and a text behind them its own. -/
theorem Member.lines_bodyRendering (finalFields : Bool) (members : List Member)
    (text : List Char) :
    Text.lines (Member.bodyRendering indentation finalFields members ++ text)
      = (Member.bodyLines indentation finalFields members).map indentation.indentLine
        ++ Text.lines text := by
  induction members with
  | nil => rfl
  | cons member others ih =>
      have hmember := indentation.lines_indentLines (member.rendering indentation finalFields)
      rw [Text.lines] at ih hmember ⊢
      rw [Member.bodyRendering, List.append_assoc, List.cons_append, Text.pieces_append_cons,
        hmember, ih, bodyLines, bodyLines, List.flatMap_cons, List.map_append, List.append_assoc]

/-- An empty class is a blank line. -/
theorem JavaClass.lines_rendering_of_isEmpty (finalFields : Bool) {javaClass : JavaClass}
    (h : javaClass.isEmpty = true) :
    Text.lines (javaClass.rendering indentation finalFields) = [[]] := by
  cases javaClass
  rw [rendering, if_pos h]
  rfl

/-- A class without a comment has a line for its head, the lines of its members one level deeper,
and a last one. -/
theorem JavaClass.lines_rendering (finalFields : Bool) {javaClass : JavaClass}
    (h : ¬ javaClass.isEmpty = true) (hcomment : javaClass.comment = {})
    (hname : '\n' ∉ javaClass.name.toList) :
    Text.lines (javaClass.rendering indentation finalFields)
      = (headLine javaClass.name javaClass.isStatic).toList
        :: (Member.bodyLines indentation finalFields javaClass.members).map indentation.indentLine
        ++ ["\x7d".toList] := by
  obtain ⟨name, isStatic, keepEmpty, comment, members⟩ := javaClass
  obtain rfl : comment = {} := hcomment
  have hrendering : JavaClass.rendering indentation finalFields
        ⟨name, isStatic, keepEmpty, {}, members⟩
      = (headLine name isStatic).toList
        ++ '\n' :: (Member.bodyRendering indentation finalFields members ++ "\x7d".toList) := by
    rw [rendering, if_neg h, DocComment.rendering_empty]
    simp
  have hhead : '\n' ∉ (headLine name isStatic).toList := by
    cases isStatic <;> simpa [headLine] using hname
  have hbody := Member.lines_bodyRendering indentation finalFields members "\x7d".toList
  rw [Text.lines] at hbody
  rw [hrendering, Text.lines, Text.pieces_append_cons, Text.pieces_of_not_mem hhead, hbody]
  rfl

end JavaResources
