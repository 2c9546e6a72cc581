import JavaResources.Proofs.Layout.Empty
import JavaResources.Proofs.Layout.Rendering

/-!
# Final fields in a text

Whether constant fields are final shows in their declarations and nowhere else. Every field has its
place in a text: `JavaClass.fields` counts the lines and levels up to it. `Field.MadeFinal` relates
a text to the same text with the declarations in given places made final, and `JavaClass.madeFinal`
says that the two texts of a class are related by the fields that are reached from the class, at any
level and whatever else is in the class.
-/

namespace JavaResources

/-! ## Reachable fields -/

/-- A field in its place in a text: the line in which its declaration begins, counted from zero on,
and the level of the declaration. -/
structure Field.Placed where
  line : Nat
  level : Nat
  field : Field

/-- The number of line feeds that commands write. -/
def Command.lineFeeds (commands : List Command) : Nat :=
  (commands.flatMap text).count '\n'

@[simp]
theorem Command.lineFeeds_append (first second : List Command) :
    lineFeeds (first ++ second) = lineFeeds first + lineFeeds second := by
  rw [lineFeeds, List.flatMap_append, List.count_append]
  rfl

section Places

open Command

mutual

/-- The fields that are reached from a member which begins in a line and at a level, in the order in
which they are printed. A declaration stands below the comment of its field. -/
def Member.fields (line level : Nat) : Member → List Field.Placed
  | .method _ => []
  | .field declared => [⟨line + lineFeeds declared.comment.layout, level, declared⟩]
  | .array _ => []
  | .nested inner => inner.fields line level

/-- The fields that are reached from a class which begins in a line and at a level. Its members
stand below its head, one level deeper. -/
def JavaClass.fields (line level : Nat) : JavaClass → List Field.Placed
  | ⟨name, isStatic, _, comment, members⟩ =>
    Member.allFields (line + lineFeeds (comment.layout ++ JavaClass.headLayout name isStatic))
      (level + 1) members

/-- The fields that are reached from members of which the first begins in a line, all at one level.
Each member begins in the line behind the one before. -/
def Member.allFields (line level : Nat) : List Member → List Field.Placed
  | [] => []
  | member :: others =>
    member.fields line level
      ++ Member.allFields (line + lineFeeds (member.layout false) + 1) level others

end

end Places

/-- What is not a class is reached from a class if it is reached from one of its members. -/
theorem Member.nested_reaches_iff {inner : JavaClass} {other : Member}
    (hother : other ≠ .nested inner) :
    (Member.nested inner).Reaches other ↔ ∃ member ∈ inner.members, member.Reaches other := by
  constructor
  · intro h
    cases h with
    | refl => exact absurd rfl hother
    | nested hmember hreaches => exact ⟨_, hmember, hreaches⟩
  · rintro ⟨member, hmember, hreaches⟩
    exact .nested hmember hreaches

mutual

/-- The fields of a member are those that are reached from it. -/
theorem Member.exists_mem_fields_iff {field : Field} : (line level : Nat) → (member : Member) →
    ((∃ placed ∈ member.fields line level, placed.field = field)
      ↔ member.Reaches (.field field))
  | _, _, .method _ => ⟨fun ⟨_, h, _⟩ => absurd h List.not_mem_nil, nofun⟩
  | _, _, .field declared => by
    constructor
    · rintro ⟨placed, h, rfl⟩
      obtain rfl := List.mem_singleton.1 h
      exact .refl (.field declared)
    · intro h
      cases h
      exact ⟨_, List.mem_singleton_self _, rfl⟩
  | _, _, .array _ => ⟨fun ⟨_, h, _⟩ => absurd h List.not_mem_nil, nofun⟩
  | line, level, .nested inner => inner.exists_mem_fields_iff line level

/-- The fields of a class are those that are reached from it. -/
theorem JavaClass.exists_mem_fields_iff {field : Field} : (line level : Nat) →
    (javaClass : JavaClass) → ((∃ placed ∈ javaClass.fields line level, placed.field = field)
      ↔ (Member.nested javaClass).Reaches (.field field))
  | line, level, ⟨_, _, _, _, members⟩ => by
    rw [JavaClass.fields, Member.exists_mem_allFields_iff]
    exact Iff.symm (Member.nested_reaches_iff (by nofun))

/-- The fields of members are those that are reached from one of them. -/
theorem Member.exists_mem_allFields_iff {field : Field} : (line level : Nat) →
    (members : List Member) →
    ((∃ placed ∈ Member.allFields line level members, placed.field = field)
      ↔ ∃ member ∈ members, member.Reaches (.field field))
  | _, _, [] => by simp [Member.allFields]
  | line, level, member :: others => by
    have hmember : (∃ placed ∈ member.fields line level, placed.field = field)
        ↔ member.Reaches (.field field) := member.exists_mem_fields_iff line level
    have hothers (next : Nat) :
        (∃ placed ∈ Member.allFields next level others, placed.field = field)
          ↔ ∃ other ∈ others, other.Reaches (.field field) :=
      Member.exists_mem_allFields_iff next level others
    simp only [Member.allFields, List.mem_append, or_and_right, exists_or, hmember, hothers,
      List.exists_mem_cons_iff]

end

/-- No fields are reached from an empty class. -/
theorem JavaClass.fields_of_isEmpty {javaClass : JavaClass} (h : javaClass.isEmpty = true)
    (line level : Nat) : javaClass.fields line level = [] := by
  refine List.eq_nil_iff_forall_not_mem.2 fun placed hplaced => ?_
  have hreaches := (javaClass.exists_mem_fields_iff line level).1 ⟨placed, hplaced, rfl⟩
  exact Bool.false_ne_true (hreaches.isEmpty h)

/-! ## Texts that differ in final fields -/

namespace Field

/-- What stands behind the modifiers in the declaration of a field, at a level: the lines behind the
first one are indented. -/
def declared (indentation : Indentation) (level : Nat) (field : Field) : List Char :=
  Stroke.ink indentation false (Stroke.ofText level
    (field.value.javaType ++ " " ++ field.name ++ "=" ++ field.value.text ++ ";").toList)

/-- The second text is the first one with the declarations of fields made final. The texts begin in
a line and are the same but for one declaration of each of the fields, in their order. It stands in
the place of the field: from its line on, behind the indentation of its level. -/
inductive MadeFinal (indentation : Indentation) :
    Nat → List Placed → List Char → List Char → Prop where
  | same (line : Nat) (text : List Char) : MadeFinal indentation line [] text text
  | declaration (line : Nat) (before : List Char) (level : Nat) (field : Field)
      {fields : List Placed} {plain final : List Char}
      (h : MadeFinal indentation
        (line + before.count '\n' + 1 + (field.declared indentation level).count '\n') fields
        ('\n' :: plain) ('\n' :: final)) :
      MadeFinal indentation line (⟨line + before.count '\n' + 1, level, field⟩ :: fields)
        (before ++ '\n' :: indentation.lead level ++ "public static ".toList
          ++ field.declared indentation level ++ '\n' :: plain)
        (before ++ '\n' :: indentation.lead level ++ "public static ".toList ++ "final ".toList
          ++ field.declared indentation level ++ '\n' :: final)

namespace MadeFinal

variable {indentation : Indentation} {line : Nat} {fields : List Placed}
  {plain final : List Char}

/-- The same text may stand in front of both texts, which then begin further up. -/
theorem append_left (text : List Char)
    (h : MadeFinal indentation (line + text.count '\n') fields plain final) :
    MadeFinal indentation line fields (text ++ plain) (text ++ final) := by
  cases h with
  | same _ plain => exact .same line (text ++ plain)
  | declaration _ before level field h =>
      have hcount : line + text.count '\n' + before.count '\n'
          = line + (text ++ before).count '\n' := by
        rw [List.count_append, Nat.add_assoc]
      rw [hcount] at h ⊢
      have hnext := MadeFinal.declaration line (text ++ before) level field h
      simpa only [List.append_assoc] using hnext

/-- Both texts have the same number of lines. -/
theorem length_lines (h : MadeFinal indentation line fields plain final) :
    (Text.lines final).length = (Text.lines plain).length := by
  have hword : "final ".toList.count '\n' = 0 := by decide
  rw [Text.lines, Text.lines, Text.length_pieces, Text.length_pieces, Nat.add_right_cancel_iff]
  induction h with
  | same line text => rfl
  | declaration line before level field h ih =>
      simp only [List.count_append, hword, ih]
      omega

/-- Each field makes the second text six bytes longer. -/
theorem length_encode (h : MadeFinal indentation line fields plain final) :
    (Text.encode final).length = (Text.encode plain).length + 6 * fields.length := by
  have hword : (Text.encode "final ".toList).length = 6 := by decide
  induction h with
  | same line text => rfl
  | declaration line before level field h ih =>
      simp only [Text.encode_append, List.length_append, List.length_cons, hword, ih]
      omega

/-- Without fields the texts are equal. -/
theorem eq_of_nil (h : MadeFinal indentation line [] plain final) : final = plain := by
  cases h
  rfl

end MadeFinal

end Field

/-! ## Texts that end a line -/

section Members

open Command Stroke

/-- Lines with their ends leave the next line to owe its indentation. -/
theorem Stroke.owesAfter_lines (level : Nat) (lines : List (List Char)) :
    owesAfter true (ofText level (lines.flatMap (· ++ ['\n']))) = true := by
  induction lines with
  | nil => rfl
  | cons line others ih =>
      rw [List.flatMap_cons, ofText_append, owesAfter_append, owesAfter_lineFeed, ih]

variable (indentation : Indentation)

/-- If indentation is owed after strokes on a new line, a line feed stands in front of what is to
come. -/
theorem Stroke.exists_ink_eq_concat {strokes : List Stroke} (h : owesAfter true strokes = true) :
    ∃ before, '\n' :: ink indentation true strokes = before ++ ['\n'] := by
  rcases List.eq_nil_or_concat strokes with rfl | ⟨others, last, rfl⟩
  · exact ⟨[], rfl⟩
  · rw [List.concat_eq_append, owesAfter_append] at h
    have hend : last.endsLine = true := h
    refine ⟨'\n' :: ink indentation true others, ?_⟩
    rw [List.concat_eq_append, ink_append, ink, if_pos hend]
    rfl

/-- After a comment, indentation is owed. -/
theorem DocComment.owesAfter_rendering (comment : DocComment) (level : Nat) :
    owesAfter true (ofText level comment.rendering) = true := by
  rw [comment.rendering_eq, owesAfter_lines]

/-! ## Declarations -/

/-- The text of a field is that of its comment and then its declaration. -/
theorem Field.textAt_layout (finalFields : Bool) (level : Nat) (field : Field) :
    textAt indentation level (field.layout finalFields)
      = ink indentation true (ofText level field.comment.rendering) ++ indentation.lead level
        ++ "public static ".toList ++ (if finalFields then "final " else "").toList
        ++ field.declared indentation level := by
  have hmodifiers :
      '\n' ∉ "public static ".toList ++ (if finalFields then "final " else "").toList := by
    cases finalFields <;> decide
  have hne : "public static ".toList ++ (if finalFields then "final " else "").toList ≠ [] :=
    List.append_ne_nil_of_left_ne_nil (by decide) _
  have hrendering : field.rendering finalFields
      = field.comment.rendering
        ++ (("public static ".toList ++ (if finalFields then "final " else "").toList)
          ++ (field.value.javaType ++ " " ++ field.name ++ "=" ++ field.value.text
            ++ ";").toList) := by
    rw [rendering]
    simp only [String.toList_append, List.append_assoc]
  rw [textAt, strokesAll_of_writesText (field.writesText_layout finalFields), field.text_layout,
    hrendering, ofText_append, ink_append, field.comment.owesAfter_rendering, ofText_append,
    ink_ofText_cons indentation hmodifiers hne, declared]
  simp only [List.append_assoc]

/-! ## Line feeds -/

theorem Indentation.count_lead (level : Nat) : (indentation.lead level).count '\n' = 0 :=
  List.count_eq_zero.2 (indentation.lineFeed_not_mem_lead level)

/-- Strokes leave their line feeds, and indentation has none. -/
theorem Stroke.count_ink (owes : Bool) (strokes : List Stroke) :
    (ink indentation owes strokes).count '\n' = (strokes.map Stroke.char).count '\n' := by
  induction strokes generalizing owes with
  | nil => rfl
  | cons stroke others ih =>
      rw [ink, List.map_cons]
      split
      · next hend =>
          have hchar : stroke.char = '\n' := by simpa [endsLine] using hend
          rw [hchar, List.count_cons_self, List.count_cons_self, ih]
      · next hend =>
          have hchar : stroke.char ≠ '\n' := by simpa [endsLine] using hend
          have hlead : (if owes then indentation.lead stroke.level else []).count '\n' = 0 := by
            split
            · exact indentation.count_lead stroke.level
            · rfl
          rw [List.count_append, hlead, List.count_cons_of_ne hchar, List.count_cons_of_ne hchar,
            ih, Nat.zero_add]

/-- Commands write their line feeds at any level. -/
theorem Command.count_textAt (level : Nat) (commands : List Command) :
    (textAt indentation level commands).count '\n' = lineFeeds commands := by
  rw [textAt, count_ink, chars_strokesAll, lineFeeds]

/-- Text at a level leaves its line feeds. -/
theorem Stroke.count_ink_ofText (owes : Bool) (level : Nat) (text : List Char) :
    (ink indentation owes (ofText level text)).count '\n' = text.count '\n' := by
  rw [count_ink, ofText, List.map_map]
  exact congrArg (List.count '\n') (List.map_id text)

/-- The line feeds of a field are those of its comment and of its declaration. -/
theorem Field.lineFeeds_layout (level : Nat) (field : Field) :
    lineFeeds (field.layout false)
      = lineFeeds field.comment.layout + (field.declared indentation level).count '\n' := by
  have hpublic : "public static ".toList.count '\n' = 0 := by decide
  have hplain : (if false = true then "final " else "").toList.count '\n' = 0 := by decide
  rw [← count_textAt indentation level, field.textAt_layout indentation, lineFeeds,
    field.comment.text_layout]
  simp only [List.count_append, count_ink_ofText, indentation.count_lead, hpublic, hplain,
    Nat.add_zero]

/-- The head of a class leaves the line feed in front of it, and all line feeds but its last. -/
theorem JavaClass.count_ink_head (level : Nat) (comment : DocComment) (name : String)
    (isStatic : Bool) :
    ('\n' :: ink indentation true
        (ofText level (comment.rendering ++ (headLine name isStatic).toList))).count '\n'
      = lineFeeds (comment.layout ++ headLayout name isStatic) := by
  rw [List.count_cons_self, count_ink_ofText, lineFeeds, List.flatMap_append, comment.text_layout,
    text_headLayout]
  simp only [List.count_append, List.count_singleton_self, Nat.add_assoc]

/-- The line feeds of a class that is not empty are those of its head and of its members. -/
theorem JavaClass.lineFeeds_layout (finalFields : Bool) {javaClass : JavaClass}
    (h : ¬ javaClass.isEmpty = true) :
    lineFeeds (javaClass.layout finalFields)
      = lineFeeds (javaClass.comment.layout ++ headLayout javaClass.name javaClass.isStatic)
        + lineFeeds (Member.bodyLayout finalFields javaClass.members) := by
  have hbody (body : List Command) :
      lineFeeds (.enter :: body ++ [.leave, .put "\x7d"]) = lineFeeds body := by
    simp [lineFeeds, text]
  rw [layout_eq, if_neg h, List.append_assoc, lineFeeds_append, hbody]

/-- Every member of a class is followed by a line feed. -/
theorem Member.lineFeeds_bodyLayout (finalFields : Bool) (member : Member)
    (others : List Member) :
    lineFeeds (Member.bodyLayout finalFields (member :: others))
      = lineFeeds (member.layout finalFields) + 1
        + lineFeeds (Member.bodyLayout finalFields others) := by
  have hend : lineFeeds [.endLine] = 1 := rfl
  rw [Member.bodyLayout, List.append_cons, lineFeeds_append, lineFeeds_append, hend]

/-! ## Members with final fields -/

variable {indentation} {line : Nat} {fields : List Field.Placed} {plain final : List Char}

/-- A field that is made final, on lines of its own and in front of other text. -/
theorem Field.madeFinal (level : Nat) (field : Field)
    (h : MadeFinal indentation (line + 1 + lineFeeds (field.layout false)) fields
      ('\n' :: plain) ('\n' :: final)) :
    MadeFinal indentation line (⟨line + 1 + lineFeeds field.comment.layout, level, field⟩ :: fields)
      ('\n' :: (textAt indentation level (field.layout false) ++ '\n' :: plain))
      ('\n' :: (textAt indentation level (field.layout true) ++ '\n' :: final)) := by
  have hplain : (if false = true then "final " else "").toList = [] := rfl
  have hfinal : (if true = true then "final " else "").toList = "final ".toList := rfl
  have hcomment := field.comment.owesAfter_rendering level
  obtain ⟨before, hbefore⟩ := exists_ink_eq_concat indentation hcomment
  have habove : lineFeeds field.comment.layout = before.count '\n' := by
    have hcount := congrArg (List.count '\n') hbefore
    rw [List.count_cons_self, count_ink_ofText, List.count_append, List.count_singleton_self,
      Nat.add_right_cancel_iff] at hcount
    rw [lineFeeds, field.comment.text_layout, hcount]
  rw [field.lineFeeds_layout indentation level, habove, ← Nat.add_assoc,
    Nat.add_right_comm line 1] at h
  have hdeclaration := MadeFinal.declaration line before level field h
  -- The line feed in front of the declaration is the last of the comment, if there is one.
  have hfront (text : List Char) :
      '\n' :: (ink indentation true (ofText level field.comment.rendering) ++ text)
        = before ++ '\n' :: text := by
    rw [← List.cons_append, hbefore, List.append_assoc]
    rfl
  rw [field.textAt_layout indentation, field.textAt_layout indentation, hplain, hfinal, habove,
    Nat.add_right_comm line 1]
  simpa only [hfront, List.append_assoc, List.cons_append, List.nil_append] using hdeclaration

/-- What stays as it is, on lines of its own and in front of other text. -/
theorem Field.MadeFinal.behind (level : Nat) (commands : List Command)
    (h : MadeFinal indentation (line + 1 + lineFeeds commands) fields plain final) :
    MadeFinal indentation line fields ('\n' :: (textAt indentation level commands ++ plain))
      ('\n' :: (textAt indentation level commands ++ final)) := by
  have hcount : ('\n' :: textAt indentation level commands).count '\n'
      = 1 + lineFeeds commands := by
    rw [List.count_cons_self, count_textAt, Nat.add_comm]
  rw [Nat.add_assoc, ← hcount] at h
  exact h.append_left ('\n' :: textAt indentation level commands)

mutual

/-- A member with final fields, on lines of its own and in front of other text. -/
theorem Member.madeFinal (level : Nat) : (member : Member) →
    {line : Nat} → {fields : List Field.Placed} → {plain final : List Char} →
    Field.MadeFinal indentation (line + 1 + lineFeeds (member.layout false)) fields
      ('\n' :: plain) ('\n' :: final) →
    Field.MadeFinal indentation line (member.fields (line + 1) level ++ fields)
      ('\n' :: (textAt indentation level (member.layout false) ++ '\n' :: plain))
      ('\n' :: (textAt indentation level (member.layout true) ++ '\n' :: final))
  | .method _, _, _, _, _, h => h.behind level _
  | .field declared, _, _, _, _, h => declared.madeFinal level h
  | .array _, _, _, _, _, h => h.behind level _
  | .nested inner, _, _, _, _, h => inner.madeFinal level h

/-- A class with final fields, on a new line and in front of other text. -/
theorem JavaClass.madeFinal (level : Nat) : (javaClass : JavaClass) →
    {line : Nat} → {fields : List Field.Placed} → {plain final : List Char} →
    Field.MadeFinal indentation (line + 1 + lineFeeds (javaClass.layout false)) fields plain final →
    Field.MadeFinal indentation line (javaClass.fields (line + 1) level ++ fields)
      ('\n' :: (textAt indentation level (javaClass.layout false) ++ plain))
      ('\n' :: (textAt indentation level (javaClass.layout true) ++ final))
  | ⟨name, isStatic, keepEmpty, comment, members⟩, line, fields, plain, final, h => by
    by_cases hempty : JavaClass.isEmpty ⟨name, isStatic, keepEmpty, comment, members⟩ = true
    · have hlayout (finalFields : Bool) : JavaClass.layout finalFields
          ⟨name, isStatic, keepEmpty, comment, members⟩ = [] := by
        rw [JavaClass.layout_eq, if_pos hempty]
      rw [hlayout] at h
      rw [JavaClass.fields_of_isEmpty hempty, hlayout, hlayout]
      exact h.append_left ['\n']
    · have hhead := JavaClass.count_ink_head indentation level comment name isStatic
      have hbrace : (indentation.lead level ++ "\x7d".toList).count '\n' = 0 := by
        rw [List.count_append, indentation.count_lead]
        decide
      rw [JavaClass.lineFeeds_layout false hempty] at h
      have hend : Field.MadeFinal indentation
          (line + lineFeeds (comment.layout ++ JavaClass.headLayout name isStatic)
            + lineFeeds (Member.bodyLayout false members)) fields
          ('\n' :: (indentation.lead level ++ "\x7d".toList ++ plain))
          ('\n' :: (indentation.lead level ++ "\x7d".toList ++ final)) := by
        refine Field.MadeFinal.append_left ('\n' :: (indentation.lead level ++ "\x7d".toList)) ?_
        rw [List.count_cons_self, hbrace, Nat.add_assoc line, Nat.add_right_comm]
        exact h
      have hbody := Member.madeFinal_bodyLayout (level + 1) members hend
      rw [← hhead] at hbody
      have hclass := hbody.append_left ('\n' :: ink indentation true
        (ofText level (comment.rendering ++ (JavaClass.headLine name isStatic).toList)))
      rw [JavaClass.textAt_layout indentation false level hempty,
        JavaClass.textAt_layout indentation true level hempty, JavaClass.fields, ← hhead,
        Nat.add_right_comm]
      simpa only [List.append_assoc, List.cons_append] using hclass

/-- The members of a class with final fields, on a new line and in front of other text. -/
theorem Member.madeFinal_bodyLayout (level : Nat) : (members : List Member) →
    {line : Nat} → {fields : List Field.Placed} → {plain final : List Char} →
    Field.MadeFinal indentation (line + lineFeeds (Member.bodyLayout false members)) fields
      ('\n' :: plain) ('\n' :: final) →
    Field.MadeFinal indentation line (Member.allFields (line + 1) level members ++ fields)
      ('\n' :: (textAt indentation level (Member.bodyLayout false members) ++ plain))
      ('\n' :: (textAt indentation level (Member.bodyLayout true members) ++ final))
  | [], _, _, _, _, h => h
  | member :: others, line, _, _, _, h => by
    rw [Member.lineFeeds_bodyLayout, ← Nat.add_assoc, ← Nat.add_assoc,
      Nat.add_right_comm line _ 1] at h
    have hmember := member.madeFinal level (Member.madeFinal_bodyLayout level others h)
    rw [Member.textAt_bodyLayout, Member.textAt_bodyLayout, Member.allFields]
    simpa only [List.append_assoc, List.cons_append] using hmember

end

end Members

end JavaResources
