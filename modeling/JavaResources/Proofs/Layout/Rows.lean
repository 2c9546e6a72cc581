import JavaResources.Proofs.Layout.RenderedLines
import JavaResources.Proofs.Text.Words
import Mathlib.Algebra.Order.Floor.Div

/-!
# The rows of an array

An array is laid out element by element: a line starts before every fourth one and a comma follows
all but the last. `ResourceArray.write_rows` says what comes of it: the elements are cut into groups
of four, each group is a line, and what stands between the braces is read as the elements again.
-/

namespace JavaResources

namespace ResourceArray

/-! ## Groups of four -/

/-- The rows hold all elements, in order. -/
theorem flatten_rows (elements : List ResourceId) : (rows elements).flatten = elements := by
  induction elements using rows.induct with
  | case1 first second third fourth others ih =>
      rw [rows, List.flatten_cons, ih]
      rfl
  | case2 => rfl
  | case3 last hlong hempty => rw [rows.eq_3 last hlong hempty, List.flatten_singleton]

/-- The elements that are left when there are no four more are less than four. -/
theorem length_lt_of_last {last : List ResourceId}
    (hlong : ∀ first second third fourth others,
      last ≠ first :: second :: third :: fourth :: others) : last.length < idsPerLine := by
  rcases last with _ | ⟨first, _ | ⟨second, _ | ⟨third, _ | ⟨fourth, others⟩⟩⟩⟩
  · simp [idsPerLine]
  · simp [idsPerLine]
  · simp [idsPerLine]
  · simp [idsPerLine]
  · exact absurd rfl (hlong first second third fourth others)

/-- No row has more than four elements. -/
theorem length_le_of_mem_rows {elements : List ResourceId} :
    ∀ row ∈ rows elements, row.length ≤ idsPerLine := by
  induction elements using rows.induct with
  | case1 first second third fourth others ih =>
      intro row hrow
      rw [rows, List.mem_cons] at hrow
      rcases hrow with rfl | hrow
      · exact Nat.le_refl _
      · exact ih row hrow
  | case2 => exact fun row hrow => absurd hrow List.not_mem_nil
  | case3 last hlong hempty =>
      intro row hrow
      rw [rows.eq_3 last hlong hempty, List.mem_singleton] at hrow
      rw [hrow]
      exact (length_lt_of_last hlong).le

/-- All rows but the last have four elements. -/
theorem length_of_mem_dropLast_rows {elements : List ResourceId} :
    ∀ row ∈ (rows elements).dropLast, row.length = idsPerLine := by
  induction elements using rows.induct with
  | case1 first second third fourth others ih =>
      intro row hrow
      by_cases hothers : rows others = []
      · rw [rows, hothers] at hrow
        exact absurd hrow List.not_mem_nil
      · rw [rows, List.dropLast_cons_of_ne_nil hothers, List.mem_cons] at hrow
        rcases hrow with rfl | hrow
        · rfl
        · exact ih row hrow
  | case2 => exact fun row hrow => absurd hrow List.not_mem_nil
  | case3 last hlong hempty =>
      intro row hrow
      rw [rows.eq_3 last hlong hempty] at hrow
      exact absurd hrow List.not_mem_nil

/-- There is a row for every four elements, and one for those that are left. -/
theorem length_rows (elements : List ResourceId) :
    (rows elements).length = elements.length ⌈/⌉ idsPerLine := by
  have hceil (count : Nat) : count ⌈/⌉ idsPerLine = (count + 3) / 4 :=
    Nat.ceilDiv_eq_add_pred_div count 4
  rw [hceil]
  induction elements using rows.induct with
  | case1 first second third fourth others ih =>
      rw [rows, List.length_cons, ih]
      simp only [List.length_cons]
      omega
  | case2 => rfl
  | case3 last hlong hempty =>
      have hpositive : 0 < last.length := List.length_pos_iff.2 hempty
      have hshort := length_lt_of_last hlong
      rw [rows.eq_3 last hlong hempty, List.length_singleton]
      unfold idsPerLine at hshort
      omega

/-! ## The text between the braces -/

/-- The text between the braces of an array at a level: each row on a line one level deeper, and the
start of the line of the closing brace. -/
def elementsText (indentation : Indentation) (level : Nat) (elements : List ResourceId) :
    List Char :=
  (rowLines (rows elements)).flatMap (fun line => '\n' :: (indentation.lead (level + 1) ++ line))
    ++ '\n' :: indentation.lead level

theorem length_rowLines (rows : List (List ResourceId)) : (rowLines rows).length = rows.length := by
  induction rows with
  | nil => rfl
  | cons row others ih => rw [rowLines, List.length_cons, ih, List.length_cons]

/-- The lines between the braces. -/
theorem lines_elementsText (indentation : Indentation) (level : Nat)
    (elements : List ResourceId) :
    Text.lines (elementsText indentation level elements)
      = [] :: (rowLines (rows elements)).map (indentation.lead (level + 1) ++ ·)
        ++ [indentation.lead level] := by
  have hjoined : elementsText indentation level elements
      = Text.joined '\n' ([] :: (rowLines (rows elements)).map (indentation.lead (level + 1) ++ ·)
        ++ [indentation.lead level]) := by
    rw [List.cons_append, Text.joined_cons]
    simp [elementsText, List.flatMap_map]
  rw [hjoined, Text.lines]
  refine Text.pieces_joined (List.cons_ne_nil _ _) fun line hline => ?_
  rw [List.cons_append, List.mem_cons, List.mem_append, List.mem_map, List.mem_singleton] at hline
  rcases hline with rfl | ⟨line, hline, rfl⟩ | rfl
  · exact List.not_mem_nil
  · rw [List.mem_append, not_or]
    exact ⟨indentation.lineFeed_not_mem_lead _, lineFeed_not_mem_rowLines _ line hline⟩
  · exact indentation.lineFeed_not_mem_lead level

open Command Stroke

/-- At any level, an array is its comment and its first line, its rows, and the closing brace. -/
theorem textAt_layout (indentation : Indentation) (level : Nat) (array : ResourceArray) :
    textAt indentation level array.layout
      = indentation.indentLines^[level] (array.comment.rendering ++ headLine array.name)
        ++ elementsText indentation level array.elements ++ "\x7d;".toList := by
  have hrows : ∀ line ∈ rowLines (rows array.elements), line ≠ [] ∧ '\n' ∉ line := by
    intro line hline
    obtain ⟨rest, rfl⟩ := exists_cons_of_mem_rowLines ne_nil_of_mem_rows line hline
    exact ⟨List.cons_ne_nil _ _, lineFeed_not_mem_rowLines _ _ hline⟩
  have hhead : (array.comment.layout
        ++ [Command.put ("public static final int[] " ++ array.name ++ "=\x7b")]).flatMap text
      = array.comment.rendering ++ headLine array.name := by
    rw [List.flatMap_append, array.comment.text_layout, List.flatMap_singleton]
    rfl
  have hbody : (elementLayout 0 array.elements ++ [Command.endLine]).flatMap text
      = (rowLines (rows array.elements)).flatMap ('\n' :: ·) ++ ['\n'] := by
    rw [List.flatMap_append, text_elementLayout array.elements 0 rfl, rowsText_eq_joined,
      Text.joined_cons]
    rfl
  have hbrace : '\n' ∉ "\x7d;".toList := by decide
  have hlast : ink indentation true (ofText level ([Command.put "\x7d;"].flatMap text))
      = indentation.lead level ++ "\x7d;".toList :=
    ink_ofText_line indentation hbrace (by decide) level
  rw [textAt, array.layout_eq_scope,
    strokesAll_scope level array.writesText_head (.of_writesText array.writesText_body) rfl,
    strokesAll_of_writesText array.writesText_body, hhead, hbody, ink_append, ink_append,
    owesAfter_append, owesAfter_lineFeed, hlast, ink_ofText, ink_ofText_breaks _ _ _ hrows,
    elementsText]
  simp

/-! ## Reading the elements back -/

/-- The identifiers that a text lists, with commas between them and blanks around them. -/
def readElements? (text : List Char) : Option (List ResourceId) :=
  let texts := (Text.pieces ',' text).map Text.trim
  if texts = [[]] then some [] else texts.mapM ResourceId.ofText?

/-- Among blanks, an identifier is one piece of a list. -/
theorem trim_pieces_text {before after : List Char} (hbefore : ∀ c ∈ before, Text.isBlank c = true)
    (hafter : ∀ c ∈ after, Text.isBlank c = true) (id : ResourceId) :
    (Text.pieces ',' (before ++ id.text.toList ++ after)).map Text.trim = [id.text.toList] := by
  have hblank : Text.isBlank ',' ≠ true := by decide
  have hnone : "0123456789abcdefx".toList.all (!Text.isBlank ·) = true := by decide
  have hid : ',' ∉ id.text.toList := fun h => absurd (ResourceId.mem_text h) (by decide)
  have hcomma : ',' ∉ before ++ id.text.toList ++ after := by
    simp only [List.mem_append, not_or]
    exact ⟨⟨fun h => hblank (hbefore _ h), hid⟩, fun h => hblank (hafter _ h)⟩
  have hne : id.text.toList ≠ [] := by
    rw [id.toList_text]
    exact List.cons_ne_nil _ _
  have hmarks : ∀ c ∈ id.text.toList, Text.isBlank c = false := fun c hc => by
    simpa using List.all_eq_true.1 hnone c (ResourceId.mem_text hc)
  rw [Text.pieces_of_not_mem hcomma, List.map_singleton,
    Text.trim_padded hbefore hafter hne hmarks]

/-- Among blanks, a row is a list of its identifiers. -/
theorem trim_pieces_rowText {before after : List Char} {row : List ResourceId} (hrow : row ≠ [])
    (hbefore : ∀ c ∈ before, Text.isBlank c = true) (hafter : ∀ c ∈ after, Text.isBlank c = true) :
    (Text.pieces ',' (before ++ rowText row ++ after)).map Text.trim
      = row.map fun id => id.text.toList := by
  induction row generalizing before with
  | nil => contradiction
  | cons id others ih =>
      cases others with
      | nil =>
          rw [rowText_cons, if_pos rfl, List.append_nil, trim_pieces_text hbefore hafter]
          rfl
      | cons next more =>
          -- The blank behind a comma stands in front of the next identifier.
          have htext : before ++ rowText (id :: next :: more) ++ after
              = (before ++ id.text.toList ++ [])
                ++ ',' :: ([' '] ++ rowText (next :: more) ++ after) := by
            rw [rowText_cons, if_neg (List.cons_ne_nil next more)]
            simp
          rw [htext, Text.pieces_append_cons, List.map_append,
            trim_pieces_text hbefore (by simp),
            ih (List.cons_ne_nil next more) (List.forall_mem_singleton.2 rfl)]
          rfl

/-- Among blanks, the lines of rows are a list of their identifiers. -/
theorem trim_pieces_rowLines {before start after : List Char} {rows : List (List ResourceId)}
    (hne : rows ≠ []) (hrows : ∀ row ∈ rows, row ≠ [])
    (hbefore : ∀ c ∈ before, Text.isBlank c = true) (hstart : ∀ c ∈ start, Text.isBlank c = true)
    (hafter : ∀ c ∈ after, Text.isBlank c = true) :
    (Text.pieces ',' (before ++ (rowLines rows).flatMap (start ++ ·) ++ after)).map Text.trim
      = rows.flatten.map fun id => id.text.toList := by
  induction rows generalizing before with
  | nil => contradiction
  | cons row others ih =>
      have hrow : row ≠ [] := hrows row List.mem_cons_self
      have hpadding : ∀ c ∈ before ++ start, Text.isBlank c = true := fun c hc =>
        (List.mem_append.1 hc).elim (hbefore c) (hstart c)
      cases others with
      | nil =>
          have htext : before ++ (rowLines [row]).flatMap (start ++ ·) ++ after
              = before ++ start ++ rowText row ++ after := by
            simp [rowLines]
          rw [htext, trim_pieces_rowText hrow hpadding hafter, List.flatten_singleton]
      | cons next more =>
          -- The comma at the end of a line is followed by a blank and the break of the next line.
          have htext : before ++ (rowLines (row :: next :: more)).flatMap (start ++ ·) ++ after
              = (before ++ start ++ rowText row ++ [])
                ++ ',' :: ([' '] ++ (rowLines (next :: more)).flatMap (start ++ ·) ++ after) := by
            simp [rowLines]
          have hspace : ∀ c ∈ [' '], Text.isBlank c = true := List.forall_mem_singleton.2 rfl
          have hothers := ih (List.cons_ne_nil next more)
            (fun other hother => hrows other (List.mem_cons_of_mem row hother)) hspace
          rw [htext, Text.pieces_append_cons, List.map_append,
            trim_pieces_rowText hrow hpadding (by simp), hothers, ← List.map_append]
          rfl

/-- Texts of identifiers are read as the identifiers. -/
theorem mapM_ofText?_text (elements : List ResourceId) :
    (elements.map fun id => id.text.toList).mapM ResourceId.ofText? = some elements := by
  induction elements with
  | nil => rfl
  | cons id others ih => simp [List.mapM_cons, ih, id.ofText?_text]

/-- What stands between the braces of an array is read as its elements. -/
theorem readElements?_elementsText (indentation : Indentation) (level : Nat)
    (elements : List ResourceId) :
    readElements? (elementsText indentation level elements) = some elements := by
  have hlead (level : Nat) : ∀ c ∈ indentation.lead level, Text.isBlank c = true :=
    fun c hc => Indentation.isBlank_of_mem_unit c (Indentation.mem_unit_of_mem_lead hc)
  have hbreak (level : Nat) : ∀ c ∈ '\n' :: indentation.lead level, Text.isBlank c = true :=
    List.forall_mem_cons.2 ⟨by decide, hlead level⟩
  cases elements with
  | nil =>
      have hcomma : ',' ∉ '\n' :: indentation.lead level :=
        fun h => absurd (hbreak level ',' h) (by decide)
      have htrim : Text.trim ('\n' :: indentation.lead level) = [] := by
        rw [Text.trim, Text.trimLeft, List.dropWhile_eq_nil_iff.2 (hbreak level)]
        rfl
      have hpieces :
          (Text.pieces ',' (elementsText indentation level [])).map Text.trim = [[]] := by
        rw [elementsText, rows, rowLines, List.flatMap_nil, List.nil_append,
          Text.pieces_of_not_mem hcomma, List.map_singleton, htrim]
      rw [readElements?, hpieces]
      rfl
  | cons id others =>
      have hrows : rows (id :: others) ≠ [] := fun h => by
        have hflatten := flatten_rows (id :: others)
        rw [h] at hflatten
        exact List.cons_ne_nil id others hflatten.symm
      have hpieces : (Text.pieces ',' (elementsText indentation level (id :: others))).map Text.trim
          = (id :: others).map fun id => id.text.toList := by
        have htrim := trim_pieces_rowLines hrows ne_nil_of_mem_rows (List.forall_mem_nil _)
          (hbreak (level + 1)) (hbreak level)
        rw [flatten_rows] at htrim
        exact htrim
      have hnone : (id :: others).map (fun id => id.text.toList) ≠ [[]] := by
        rw [List.map_cons, id.toList_text]
        exact fun h => List.cons_ne_nil _ _ (List.cons.inj h).1
      have hread := mapM_ofText?_text (id :: others)
      rw [readElements?, hpieces, if_neg hnone, hread]

/-! ## Arrays as they are written -/

/-- At the start of a line, a pen on a sink that refuses nothing writes any array: its comment and
its first line, then each row on a line of its own, one level deeper, and then the closing brace on
a line at the level of the pen. The rows are the elements in order, four to a row but for the last
one, with a separator between any two elements and none behind the last. What stands between the
braces is read as the elements again. -/
theorem write_rows (array : ResourceArray) (finalFields : Bool) (pen : Pen)
    (hsink : pen.sink.Unlimited) (hstart : pen.owesIndent = true) :
    let between := elementsText pen.indentation pen.level array.elements
    let groups := rows array.elements
    ((Member.array array).write finalFields pen).fault = none ∧
      ((Member.array array).write finalFields pen).state.sink.written.toList
        = pen.sink.written.toList ++ Text.encode
          (pen.indentation.indentLines^[pen.level] (array.comment.rendering
              ++ ("public static final int[] " ++ array.name ++ "=\x7b").toList)
            ++ between ++ "\x7d;".toList) ∧
      Text.lines between
        = [] :: (rowLines groups).map (pen.indentation.lead (pen.level + 1) ++ ·)
          ++ [pen.indentation.lead pen.level] ∧
      (rowLines groups).flatten
        = List.intercalate ", ".toList (array.elements.map fun id => id.text.toList) ∧
      (rowLines groups).length = array.elements.length ⌈/⌉ 4 ∧
      groups.flatten = array.elements ∧
      (∀ row ∈ groups, 0 < row.length ∧ row.length ≤ 4) ∧
      (∀ row ∈ groups.dropLast, row.length = 4) ∧
      readElements? between = some array.elements := by
  have hwrote : Pen.Wrote pen.sink _ ((Member.array array).write finalFields pen) :=
    Pen.performAll_wrote (array.layout_closed.permitted_at pen.level)
  have htext := array.textAt_layout pen.indentation pen.level
  rw [textAt, ← hstart] at htext
  rw [Member.layout, htext] at hwrote
  obtain ⟨hfault, hwritten⟩ := hwrote.of_unlimited hsink
  have hcount := (length_rowLines (rows array.elements)).trans (length_rows array.elements)
  exact ⟨hfault, hwritten, lines_elementsText _ _ _, flatten_rowLines _, hcount,
    flatten_rows _,
    fun row hrow => ⟨List.length_pos_iff.2 (ne_nil_of_mem_rows row hrow),
      length_le_of_mem_rows row hrow⟩,
    length_of_mem_dropLast_rows, readElements?_elementsText _ _ _⟩

/-- Five elements take two lines at level one, where the name goes on to another line. -/
theorem write_rows_five :
    Sink.Unlimited { chunk := some 1, interrupts := true } ∧
      (Member.write (.array ⟨"a\nb", [⟨1⟩, ⟨2⟩, ⟨3⟩, ⟨4⟩, ⟨5⟩], {}⟩) true
        { level := 1, sink := { chunk := some 1, interrupts := true } }).state.sink.written.toList
        = Text.encode ("  public static final int[] a\n  b=\x7b\n"
            ++ "    0x00000001, 0x00000002, 0x00000003, 0x00000004, \n"
            ++ "    0x00000005\n  \x7d;").toList := by
  have hsink : Sink.Unlimited { chunk := some 1, interrupts := true } := rfl
  obtain ⟨-, hwritten, -⟩ := write_rows ⟨"a\nb", [⟨1⟩, ⟨2⟩, ⟨3⟩, ⟨4⟩, ⟨5⟩], {}⟩ true
    { level := 1, sink := { chunk := some 1, interrupts := true } } hsink rfl
  refine ⟨hsink, hwritten.trans ?_⟩
  decide +kernel

end ResourceArray

end JavaResources
