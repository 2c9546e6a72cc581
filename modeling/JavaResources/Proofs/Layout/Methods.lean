import JavaResources.Proofs.Layout.FinalFields
import Mathlib.Data.List.ModifyLast

/-!
# Methods in a text

A method is written as it was given: the lines of its signature and of its statements come out one
after the other, each behind the indentation of its level. `Method.Shown` says of the lines of a
text that given methods are among them in this way, one method after the other, and
`JavaClass.methods_shown` that the text of a class shows all methods that are reached from the
class, at any level and whatever else is in the class.
-/

namespace JavaResources

/-! ## Reachable methods -/

mutual

/-- The methods that are reached from a member at a level, in the order in which they are printed,
each with the level of its signature. -/
def Member.methods (level : Nat) : Member → List (Nat × Method)
  | .method declared => [(level, declared)]
  | .field _ => []
  | .array _ => []
  | .nested inner => inner.methods level

/-- The methods that are reached from a class at a level. -/
def JavaClass.methods (level : Nat) : JavaClass → List (Nat × Method)
  | ⟨_, _, _, _, members⟩ => Member.allMethods (level + 1) members

/-- The methods that are reached from members at a level, one after the other. -/
def Member.allMethods (level : Nat) : List Member → List (Nat × Method)
  | [] => []
  | member :: others => member.methods level ++ Member.allMethods level others

end

mutual

/-- The methods of a member are those that are reached from it. -/
theorem Member.exists_mem_methods_iff {method : Method} : (level : Nat) → (member : Member) →
    ((∃ deeper, (deeper, method) ∈ member.methods level) ↔ member.Reaches (.method method))
  | level, .method declared => by
    constructor
    · rintro ⟨deeper, h⟩
      obtain ⟨-, rfl⟩ := Prod.mk.inj (List.mem_singleton.1 h)
      exact .refl (.method method)
    · intro h
      cases h
      exact ⟨level, List.mem_singleton_self _⟩
  | _, .field _ => ⟨fun ⟨_, h⟩ => absurd h List.not_mem_nil, nofun⟩
  | _, .array _ => ⟨fun ⟨_, h⟩ => absurd h List.not_mem_nil, nofun⟩
  | level, .nested inner => inner.exists_mem_methods_iff level

/-- The methods of a class are those that are reached from it. -/
theorem JavaClass.exists_mem_methods_iff {method : Method} : (level : Nat) →
    (javaClass : JavaClass) → ((∃ deeper, (deeper, method) ∈ javaClass.methods level)
      ↔ (Member.nested javaClass).Reaches (.method method))
  | level, ⟨_, _, _, _, members⟩ => by
    rw [JavaClass.methods, Member.exists_mem_allMethods_iff]
    exact Iff.symm (Member.nested_reaches_iff (by nofun))

/-- The methods of members are those that are reached from one of them. -/
theorem Member.exists_mem_allMethods_iff {method : Method} : (level : Nat) →
    (members : List Member) → ((∃ deeper, (deeper, method) ∈ Member.allMethods level members)
      ↔ ∃ member ∈ members, member.Reaches (.method method))
  | _, [] => by simp [Member.allMethods]
  | level, member :: others => by
    have hmember : (∃ deeper, (deeper, method) ∈ member.methods level)
        ↔ member.Reaches (.method method) := member.exists_mem_methods_iff level
    have hothers : (∃ deeper, (deeper, method) ∈ Member.allMethods level others)
        ↔ ∃ other ∈ others, other.Reaches (.method method) :=
      Member.exists_mem_allMethods_iff level others
    simp only [Member.allMethods, List.mem_append, exists_or, hmember, hothers,
      List.exists_mem_cons_iff]

end

/-- No methods are reached from an empty class. -/
theorem JavaClass.methods_of_isEmpty {javaClass : JavaClass} (h : javaClass.isEmpty = true)
    (level : Nat) : javaClass.methods level = [] := by
  refine List.eq_nil_iff_forall_not_mem.2 fun (deeper, method) hmethod => ?_
  have hempty := ((javaClass.exists_mem_methods_iff level).1 ⟨deeper, hmethod⟩).isEmpty h
  exact Bool.false_ne_true hempty

/-! ## The lines of a method -/

/-- A line at a level: behind its indentation, unless there is nothing on it. -/
def Indentation.lineAt (indentation : Indentation) (level : Nat) (line : List Char) : List Char :=
  if line = [] then [] else indentation.lead level ++ line

/-- The lines of a method at a level: those of its signature, the last of which goes on with a
brace, those of its statements one level deeper, and a closing brace. -/
def Method.linesAt (indentation : Indentation) (level : Nat) (method : Method) :
    List (List Char) :=
  ((Text.lines method.signature.toList).modifyLast (· ++ " \x7b".toList)).map
      (indentation.lineAt level)
    ++ method.statements.flatMap
      (fun statement => (Text.lines statement.toList).map (indentation.lineAt (level + 1)))
    ++ [indentation.lead level ++ "\x7d".toList]

/-- The lines of two texts with a line feed between them. -/
theorem Text.lines_append_cons (text more : List Char) :
    lines (text ++ '\n' :: more) = lines text ++ lines more :=
  pieces_append_cons '\n' text more

/-- Text that ends no line goes on with the last line of the text in front of it. -/
theorem Text.lines_append {text more : List Char} (hmore : '\n' ∉ more) :
    lines (text ++ more) = (lines text).modifyLast (· ++ more) := by
  obtain ⟨init, last, hlines⟩ := List.eq_nil_or_concat (lines text) |>.resolve_left
    (pieces_ne_nil '\n' text)
  rw [List.concat_eq_append] at hlines
  have hpieces : ∀ piece ∈ init ++ [last], '\n' ∉ piece := fun piece hpiece =>
    not_mem_of_mem_pieces piece (hlines ▸ hpiece)
  have htext : text ++ more = joined '\n' (init ++ [last ++ more]) := by
    rw [← joined_pieces '\n' text, ← lines, hlines, joined_concat, joined_concat, List.append_assoc]
  rw [htext, hlines, List.modifyLast_concat]
  refine pieces_joined (by simp) fun piece hpiece => ?_
  rw [List.mem_append, List.mem_singleton] at hpiece
  rcases hpiece with hpiece | rfl
  · exact hpieces piece (List.mem_append_left _ hpiece)
  · rw [List.mem_append, not_or]
    exact ⟨hpieces last (List.mem_append_right _ List.mem_cons_self), hmore⟩

section Ink

open Command Stroke

variable (indentation : Indentation)

/-- A line of text at a level. -/
theorem Stroke.lineText_ofText (level : Nat) (line : List Char) :
    lineText indentation (ofText level line) = indentation.lineAt level line := by
  cases line with
  | nil => rfl
  | cons c rest => simp [ofText, lineText, chars, Indentation.lineAt, Function.comp_def]

/-- Text at a level has its lines behind their indentation. -/
theorem Stroke.lines_ink_ofText (level : Nat) (text : List Char) :
    Text.lines (ink indentation true (ofText level text))
      = (Text.lines text).map (indentation.lineAt level) := by
  rw [ink_eq_joined, lines_ofText, List.map_map]
  have hline : lineText indentation ∘ ofText level = indentation.lineAt level :=
    funext fun line => lineText_ofText indentation level line
  rw [hline]
  have hne : Text.lines text ≠ [] := Text.pieces_ne_nil '\n' text
  refine Text.pieces_joined (by simpa using hne) fun line hline => ?_
  obtain ⟨piece, hpiece, rfl⟩ := List.mem_map.1 hline
  unfold Indentation.lineAt
  split
  · exact List.not_mem_nil
  · rw [List.mem_append, not_or]
    exact ⟨indentation.lineFeed_not_mem_lead level, Text.not_mem_of_mem_pieces piece hpiece⟩

/-- Texts at a level, each with its end, have their lines behind their indentation. -/
theorem Stroke.lines_ink_ofText_flatMap (level : Nat) (texts : List (List Char))
    (more : List Char) :
    Text.lines (ink indentation true (ofText level (texts.flatMap (· ++ ['\n']))) ++ more)
      = texts.flatMap (fun text => (Text.lines text).map (indentation.lineAt level))
        ++ Text.lines more := by
  induction texts with
  | nil => rfl
  | cons text others ih =>
      have hend : ink indentation true
            (ofText level (text ++ ['\n'] ++ others.flatMap (· ++ ['\n'])))
          = ink indentation true (ofText level text)
            ++ '\n' :: ink indentation true (ofText level (others.flatMap (· ++ ['\n']))) := by
        rw [List.append_assoc, ofText_append, ink_append]
        rfl
      rw [List.flatMap_cons, hend, List.append_assoc, List.cons_append, Text.lines_append_cons,
        lines_ink_ofText, ih, List.flatMap_cons, List.append_assoc]

/-- At any level, a method is its signature and a brace, its statements, and a closing brace. -/
theorem Method.textAt_layout (level : Nat) (method : Method) :
    textAt indentation level method.layout
      = ink indentation true (ofText level (method.signature.toList ++ " \x7b".toList))
        ++ '\n' :: (ink indentation true (ofText (level + 1)
            ((method.statements.map String.toList).flatMap (· ++ ['\n'])))
          ++ (indentation.lead level ++ "\x7d".toList)) := by
  have hhead : [Command.put method.signature, .putLine " \x7b"].flatMap text
      = method.signature.toList ++ " \x7b".toList ++ ['\n'] := by
    simp [text]
  have hbody : (method.statements.map Command.putLine).flatMap text
      = (method.statements.map String.toList).flatMap (· ++ ['\n']) := by
    simp [List.flatMap_map, text]
  have hbrace : '\n' ∉ "\x7d".toList := by decide
  have hlast : ink indentation true (ofText level ([Command.put "\x7d"].flatMap text))
      = indentation.lead level ++ "\x7d".toList :=
    ink_ofText_line indentation hbrace (by decide) level
  rw [textAt, method.layout_eq_scope,
    strokesAll_scope level rfl (.of_writesText method.writesText_statements) rfl,
    strokesAll_of_writesText method.writesText_statements, hhead, hbody, ink_append, ink_append,
    owesAfter_append, owesAfter_lineFeed, owesAfter_lines, hlast, ofText_append level _ ['\n'],
    ink_append, List.append_assoc, List.append_assoc]
  rfl

/-- A method is written in its lines. -/
theorem Method.lines_textAt (level : Nat) (method : Method) :
    Text.lines (textAt indentation level method.layout) = method.linesAt indentation level := by
  have hopening : '\n' ∉ " \x7b".toList := by decide
  have hend : '\n' ∉ indentation.lead level ++ "\x7d".toList := by
    rw [List.mem_append, not_or]
    exact ⟨indentation.lineFeed_not_mem_lead level, by decide⟩
  have hlast : Text.lines (indentation.lead level ++ "\x7d".toList)
      = [indentation.lead level ++ "\x7d".toList] := Text.pieces_of_not_mem hend
  rw [method.textAt_layout, Text.lines_append_cons, lines_ink_ofText, Text.lines_append hopening,
    lines_ink_ofText_flatMap, hlast, List.flatMap_map, linesAt, List.append_assoc]

end Ink

/-! ## Methods among other lines -/

/-- Lines show methods: all lines of the first method stand in a row, and behind them those of the
next one. -/
inductive Method.Shown (indentation : Indentation) :
    List (Nat × Method) → List (List Char) → Prop where
  | rest (lines : List (List Char)) : Shown indentation [] lines
  | method (before : List (List Char)) (level : Nat) (method : Method)
      {methods : List (Nat × Method)} {lines : List (List Char)}
      (h : Shown indentation methods lines) :
      Shown indentation ((level, method) :: methods)
        (before ++ method.linesAt indentation level ++ lines)

namespace Method.Shown

variable {indentation : Indentation} {methods others : List (Nat × Method)}
  {lines more : List (List Char)}

/-- Other lines may stand in front. -/
theorem append_left (before : List (List Char)) (h : Shown indentation methods lines) :
    Shown indentation methods (before ++ lines) := by
  cases h with
  | rest lines => exact .rest (before ++ lines)
  | method front level method h =>
      have hnext := Shown.method (before ++ front) level method h
      simpa only [List.append_assoc] using hnext

/-- Lines that show methods may stand in front of lines that show others. -/
theorem append (h : Shown indentation methods lines) (hmore : Shown indentation others more) :
    Shown indentation (methods ++ others) (lines ++ more) := by
  induction h with
  | rest lines => exact hmore.append_left lines
  | method before level method _ ih =>
      have hnext := Shown.method before level method ih
      simpa only [List.append_assoc, List.cons_append] using hnext

end Method.Shown

section Members

open Command Stroke

variable (indentation : Indentation) (finalFields : Bool)

mutual

/-- The text of a member shows the methods that are reached from it. -/
theorem Member.methods_shown (level : Nat) : (member : Member) →
    Method.Shown indentation (member.methods level)
      (Text.lines (textAt indentation level (member.layout finalFields)))
  | .method declared => by
    have hshown : Method.Shown indentation [(level, declared)]
        ([] ++ declared.linesAt indentation level ++ []) := .method [] level declared (.rest [])
    rw [List.nil_append, List.append_nil, ← Method.lines_textAt] at hshown
    exact hshown
  | .field _ => .rest _
  | .array _ => .rest _
  | .nested inner => inner.methods_shown level

/-- The text of a class shows the methods that are reached from it. -/
theorem JavaClass.methods_shown (level : Nat) : (javaClass : JavaClass) →
    Method.Shown indentation (javaClass.methods level)
      (Text.lines (textAt indentation level (javaClass.layout finalFields)))
  | ⟨name, isStatic, keepEmpty, comment, members⟩ => by
    by_cases hempty : JavaClass.isEmpty ⟨name, isStatic, keepEmpty, comment, members⟩ = true
    · rw [JavaClass.methods_of_isEmpty hempty]
      exact .rest _
    · have hbody := Member.allMethods_shown (level + 1) members
        (indentation.lead level ++ "\x7d".toList)
      rw [JavaClass.textAt_layout indentation finalFields level hempty, List.append_assoc,
        List.cons_append, Text.lines_append_cons]
      exact hbody.append_left _

/-- The text of the members of a class, with other text behind it, shows the methods that are
reached from them. -/
theorem Member.allMethods_shown (level : Nat) : (members : List Member) → (text : List Char) →
    Method.Shown indentation (Member.allMethods level members)
      (Text.lines (textAt indentation level (Member.bodyLayout finalFields members) ++ text))
  | [], _ => .rest _
  | member :: others, text => by
    have hmember := member.methods_shown level
    have hothers := Member.allMethods_shown level others text
    rw [Member.textAt_bodyLayout, List.append_assoc, List.cons_append, Text.lines_append_cons]
    exact hmember.append hothers

end

end Members

end JavaResources
