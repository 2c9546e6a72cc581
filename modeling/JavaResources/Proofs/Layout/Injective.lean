import JavaResources.Proofs.Layout.Empty
import JavaResources.Proofs.Layout.RenderedLines

/-!
# Trees from their text

What is written for a class of constants tells which class it was. `JavaClass.write_injective` needs
plain names, strings that stay on their lines and no empty class; then the text tells everything but
`keepEmpty`, of which a class with members shows nothing. Indentation tells nothing here: lines are
compared without it, and where the members of a class end is seen from its last line.
-/

namespace JavaResources

/-! ## Boundaries -/

/-- Lists that are cut at the first occurrence of an item are told apart by their parts. -/
theorem Text.append_cons_inj {α : Type} {item : α} {first second before after : List α}
    (hfirst : item ∉ first) (hsecond : item ∉ second)
    (h : first ++ item :: before = second ++ item :: after) : first = second ∧ before = after := by
  induction first generalizing second with
  | nil =>
      cases second with
      | nil => exact ⟨rfl, (List.cons.inj h).2⟩
      | cons other second =>
          obtain ⟨rfl, -⟩ := List.cons.inj h
          exact absurd List.mem_cons_self hsecond
  | cons other first ih =>
      rw [List.mem_cons, not_or] at hfirst
      cases second with
      | nil => exact absurd (List.cons.inj h).1.symm hfirst.1
      | cons next second =>
          obtain ⟨rfl, htail⟩ := List.cons.inj h
          rw [List.mem_cons, not_or] at hsecond
          obtain ⟨rfl, hrest⟩ := ih hfirst.2 hsecond.2 htail
          exact ⟨rfl, hrest⟩

/-- The character is an ASCII letter, a digit or an underscore. -/
def Text.isPlainChar (c : Char) : Bool :=
  c.isAlphanum || c = '_'

/-- The name consists of ASCII letters, digits and underscores. -/
def Text.isPlain (name : String) : Bool :=
  name.toList.all isPlainChar

/-- Other characters are not in a plain name. -/
theorem Text.not_mem_of_isPlain {name : String} {c : Char} (hc : isPlainChar c = false)
    (h : isPlain name = true) : c ∉ name.toList := by
  intro hmem
  have hplain : isPlainChar c = true := List.all_eq_true.1 h c hmem
  rw [hc] at hplain
  exact Bool.false_ne_true hplain

/-! ## Values and rows -/

/-- Values of the same type are told apart by their texts. -/
theorem Constant.eq_of_text_eq {first second : Constant} (htype : first.javaType = second.javaType)
    (h : first.text.toList = second.text.toList) : first = second := by
  have hkinds (value : Int32) (id : ResourceId) :
      (Constant.int value).text.toList ≠ (Constant.resource id).text.toList := by
    intro heq
    rw [text, text, String.toList_ofList, id.toList_text] at heq
    have hx : 'x' ∈ Text.decimal value.toInt := by simp [heq]
    rcases Text.mem_decimal hx with hx | hx
    · exact absurd hx (by decide)
    · exact absurd hx (by decide)
  have htypes : "int" ≠ "String" := by decide
  cases first with
  | int first =>
      cases second with
      | int second =>
          rw [text, text, String.toList_ofList, String.toList_ofList] at h
          rw [Int32.toInt_inj.1 (Text.decimal_inj h)]
      | resource id => exact absurd h (hkinds first id)
      | string text => exact absurd htype htypes
  | resource first =>
      cases second with
      | int second => exact absurd h.symm (hkinds second first)
      | resource second => rw [ResourceId.text_inj h]
      | string text => exact absurd htype htypes
  | string first =>
      cases second with
      | int second => exact absurd htype.symm htypes
      | resource id => exact absurd htype.symm htypes
      | string second =>
          have htext : first.toList = second.toList := by simpa [text] using h
          rw [String.toList_inj.1 htext]

namespace ResourceArray

/-- Rows are told apart by their texts. -/
theorem rowText_inj {first second : List ResourceId} (h : rowText first = rowText second) :
    first = second := by
  induction first generalizing second with
  | nil =>
      cases second with
      | nil => rfl
      | cons id others =>
          obtain ⟨rest, hrest⟩ := exists_rowText_cons id others
          rw [hrest] at h
          exact nomatch h
  | cons id others ih =>
      cases second with
      | nil =>
          obtain ⟨rest, hrest⟩ := exists_rowText_cons id others
          rw [hrest] at h
          exact nomatch h
      | cons next more =>
          rw [rowText_cons, rowText_cons] at h
          obtain ⟨hid, htail⟩ :=
            List.append_inj h (id.length_toList_text.trans next.length_toList_text.symm)
          obtain rfl := ResourceId.text_inj hid
          split at htail <;> split at htail
          · next hothers hmore => rw [hothers, hmore]
          · exact nomatch htail
          · exact nomatch htail
          · rw [ih (List.append_cancel_left htail)]

/-- Rows are told apart by their lines, also where lines follow that close their array. -/
theorem rowLines_append_inj {first second : List ResourceId} {before after : List (List Char)}
    (h : rowLines (rows first) ++ "\x7d;".toList :: before
      = rowLines (rows second) ++ "\x7d;".toList :: after) : first = second ∧ before = after := by
  have hlast (elements : List ResourceId) : "\x7d;".toList ∉ rowLines (rows elements) := by
    intro hmem
    obtain ⟨rest, hrest⟩ := exists_cons_of_mem_rowLines ne_nil_of_mem_rows _ hmem
    exact absurd (List.cons.inj hrest).1 (by decide)
  obtain ⟨hlines, hrest⟩ := Text.append_cons_inj (hlast first) (hlast second) h
  have hrows : rowText first = rowText second := by
    rw [← flatten_rowLines, ← flatten_rowLines, hlines]
  exact ⟨rowText_inj hrows, hrest⟩

end ResourceArray

/-! ## First lines -/

/-- A constant, an array of them or a class that is not empty, without a comment, of a plain name.
A string stays on its line. -/
def Member.Regular : Member → Prop
  | .method _ => False
  | .field declared =>
    declared.comment = {} ∧ Text.isPlain declared.name = true ∧
      ∀ text, declared.value = .string text → '\n' ∉ text.toList
  | .array declared => declared.comment = {} ∧ Text.isPlain declared.name = true
  | .nested inner =>
    inner.comment = {} ∧ Text.isPlain inner.name = true ∧ inner.isEmpty = false

/-- The first line of a member without a comment. -/
def Member.firstLine (finalFields : Bool) : Member → List Char
  | .method declared => (declared.signature ++ " \x7b").toList
  | .field declared => declared.line finalFields
  | .array declared => ResourceArray.headLine declared.name
  | .nested inner => (JavaClass.headLine inner.name inner.isStatic).toList

/-- What is on the first line of a member: an array has no elements there, and a class has no
members. -/
def Member.shell : Member → Member
  | .method declared => .method declared
  | .field declared => .field declared
  | .array declared => .array { declared with elements := [] }
  | .nested inner => .nested { inner with keepEmpty := false, members := [] }

variable {finalFields : Bool} {indentation : Indentation}

/-- Fields are told apart by their lines. -/
theorem Field.eq_of_line_eq {first second : Field} (hfirst : (Member.field first).Regular)
    (hsecond : (Member.field second).Regular)
    (h : first.line finalFields = second.line finalFields) : first = second := by
  obtain ⟨firstName, firstValue, firstComment⟩ := first
  obtain ⟨secondName, secondValue, secondComment⟩ := second
  obtain ⟨rfl : firstComment = {}, hfirst : Text.isPlain firstName = true, -⟩ := hfirst
  obtain ⟨rfl : secondComment = {}, hsecond : Text.isPlain secondName = true, -⟩ := hsecond
  have hline (name : String) (value : Constant) : line finalFields ⟨name, value, {}⟩
      = ("public static " ++ if finalFields then "final " else "").toList
        ++ (value.javaType.toList ++ ' ' :: (name.toList ++ '=' :: value.text.toList))
        ++ [';'] := by
    simp [line]
  have hblank (value : Constant) : ' ' ∉ value.javaType.toList := by
    cases value <;> simp [Constant.javaType]
  rw [hline, hline] at h
  obtain ⟨htype, hrest⟩ := Text.append_cons_inj (hblank firstValue) (hblank secondValue)
    (List.append_cancel_left (List.append_cancel_right h))
  obtain ⟨hname, htext⟩ :=
    Text.append_cons_inj (Text.not_mem_of_isPlain rfl hfirst) (Text.not_mem_of_isPlain rfl hsecond)
      hrest
  rw [String.toList_inj.1 hname, Constant.eq_of_text_eq (String.toList_inj.1 htype) htext]

/-- First lines of arrays tell their names. -/
theorem ResourceArray.headLine_inj {first second : String} (h : headLine first = headLine second) :
    first = second := by
  simpa [headLine, String.toList_inj] using h

/-- First lines of classes tell their names and which of them are static. -/
theorem JavaClass.headLine_inj {first second : String} {isStatic isOther : Bool}
    (h : (headLine first isStatic).toList = (headLine second isOther).toList) :
    first = second ∧ isStatic = isOther := by
  cases isStatic <;> cases isOther
  · exact ⟨by simpa [headLine, String.toList_inj] using h, rfl⟩
  · simp [headLine] at h
  · simp [headLine] at h
  · exact ⟨by simpa [headLine, String.toList_inj] using h, rfl⟩

/-- The line of a field does not end with a brace. -/
theorem Field.line_ne (field : Field) (text : List Char) (sign : Char) :
    field.line finalFields ≠ text ++ [sign, '\x7b'] := by
  intro h
  have hlast := field.getLast?_line finalFields
  simp [h] at hlast

/-- The line of a field ends otherwise than the first line of an array. -/
theorem Field.line_ne_arrayLine (field : Field) (name : String) :
    field.line finalFields ≠ ResourceArray.headLine name := by
  obtain ⟨text, htext⟩ := ResourceArray.exists_headLine_append name
  rw [htext]
  exact field.line_ne text '='

/-- The line of a field ends otherwise than the first line of a class. -/
theorem Field.line_ne_classLine (field : Field) (name : String) (isStatic : Bool) :
    field.line finalFields ≠ (JavaClass.headLine name isStatic).toList := by
  obtain ⟨text, htext⟩ := JavaClass.exists_headLine_append name isStatic
  rw [htext]
  exact field.line_ne text ' '

/-- The brace on the first line of an array is behind a sign that is not on that of a class. -/
theorem ResourceArray.headLine_ne_classLine (first second : String) (isStatic : Bool) :
    headLine first ≠ (JavaClass.headLine second isStatic).toList := by
  obtain ⟨array, harray⟩ := exists_headLine_append first
  obtain ⟨other, hother⟩ := JavaClass.exists_headLine_append second isStatic
  rw [harray, hother]
  intro h
  exact absurd (List.append_inj' h rfl).2 (by decide)

/-- The first line of a member tells what is on it. -/
theorem Member.shell_eq_of_firstLine_eq {first second : Member} (hfirst : first.Regular)
    (hsecond : second.Regular) (h : first.firstLine finalFields = second.firstLine finalFields) :
    first.shell = second.shell := by
  cases first with
  | method first => exact hfirst.elim
  | field first =>
      cases second with
      | method second => exact hsecond.elim
      | field second => rw [Field.eq_of_line_eq hfirst hsecond h]
      | array second => exact absurd h (first.line_ne_arrayLine second.name)
      | nested second => exact absurd h (first.line_ne_classLine second.name second.isStatic)
  | array first =>
      cases second with
      | method second => exact hsecond.elim
      | field second => exact absurd h.symm (second.line_ne_arrayLine first.name)
      | array second =>
          have hname : first.name = second.name := ResourceArray.headLine_inj h
          rw [shell, shell, hname, hfirst.1, hsecond.1]
      | nested second =>
          exact absurd h
            (ResourceArray.headLine_ne_classLine first.name second.name second.isStatic)
  | nested first =>
      cases second with
      | method second => exact hsecond.elim
      | field second => exact absurd h.symm (second.line_ne_classLine first.name first.isStatic)
      | array second =>
          exact absurd h.symm
            (ResourceArray.headLine_ne_classLine second.name first.name first.isStatic)
      | nested second =>
          obtain ⟨hname, hstatic⟩ := JavaClass.headLine_inj h
          rw [shell, shell, hname, hstatic, hfirst.1, hsecond.1]

/-! ## Contents -/

/-- Without indentation, lines that are one level deeper are the same. -/
theorem Indentation.map_trimLeft_indentLine (lines : List (List Char)) :
    (lines.map indentation.indentLine).map Text.trimLeft = lines.map Text.trimLeft := by
  rw [List.map_map]
  exact List.map_congr_left fun line _ => indentation.trimLeft_indentLine line

namespace Member

/-- The lines of a member without their indentation. -/
def contents (indentation : Indentation) (finalFields : Bool) (member : Member) :
    List (List Char) :=
  (Text.lines (member.rendering indentation finalFields)).map Text.trimLeft

/-- The first lines of constants, arrays and classes begin with a letter. -/
theorem exists_firstLine_cons (finalFields : Bool) {member : Member} (h : member.Regular) :
    ∃ rest, member.firstLine finalFields = 'p' :: rest := by
  cases member with
  | method declared => exact h.elim
  | field declared => exact declared.exists_line_cons finalFields
  | array declared => exact ResourceArray.exists_headLine_cons declared.name
  | nested inner => exact JavaClass.exists_headLine_cons inner.name inner.isStatic

/-- First lines are not indented. -/
theorem trimLeft_firstLine (finalFields : Bool) {member : Member} (h : member.Regular) :
    Text.trimLeft (member.firstLine finalFields) = member.firstLine finalFields := by
  obtain ⟨rest, hrest⟩ := exists_firstLine_cons finalFields h
  rw [hrest]
  exact Text.trimLeft_cons (by decide) rest

/-- A field is its first line. -/
theorem contents_field {field : Field} (h : (Member.field field).Regular) :
    (Member.field field).contents indentation finalFields
      = [(Member.field field).firstLine finalFields] := by
  have hfirst := trimLeft_firstLine finalFields h
  obtain ⟨hcomment, hname, hstring⟩ := h
  rw [contents, rendering, Field.lines_rendering finalFields hcomment
    (Text.not_mem_of_isPlain rfl hname) (Constant.lineFeed_not_mem_text hstring)]
  exact congrArg (fun line => [line]) hfirst

/-- An array is its first line, its rows and a last line. -/
theorem contents_array {array : ResourceArray} (h : (Member.array array).Regular) :
    (Member.array array).contents indentation finalFields
      = (Member.array array).firstLine finalFields
        :: (ResourceArray.rowLines (ResourceArray.rows array.elements) ++ ["\x7d;".toList]) := by
  have hfirst := trimLeft_firstLine finalFields h
  have hrows : (ResourceArray.rowLines (ResourceArray.rows array.elements)).map Text.trimLeft
      = ResourceArray.rowLines (ResourceArray.rows array.elements) := by
    refine (List.map_congr_left fun line hline => ?_).trans (List.map_id _)
    obtain ⟨rest, rfl⟩ :=
      ResourceArray.exists_cons_of_mem_rowLines ResourceArray.ne_nil_of_mem_rows line hline
    exact Text.trimLeft_cons (by decide) rest
  obtain ⟨hcomment, hname⟩ := h
  rw [contents, rendering, ResourceArray.lines_rendering indentation hcomment
    (Text.not_mem_of_isPlain rfl hname), List.map_append, List.map_cons,
    Indentation.map_trimLeft_indentLine, hrows]
  exact congrArg (fun line => line :: _) hfirst

/-- A class is its first line, its members and a last line. -/
theorem contents_nested {inner : JavaClass} (h : (Member.nested inner).Regular) :
    (Member.nested inner).contents indentation finalFields
      = (Member.nested inner).firstLine finalFields
        :: (inner.members.flatMap (contents indentation finalFields) ++ ["\x7d".toList]) := by
  have hfirst := trimLeft_firstLine finalFields h
  obtain ⟨hcomment, hname, hempty⟩ := h
  have hbody : (bodyLines indentation finalFields inner.members).map Text.trimLeft
      = inner.members.flatMap (contents indentation finalFields) := List.map_flatMap
  rw [contents, rendering, JavaClass.lines_rendering indentation finalFields
    (Bool.eq_false_iff.1 hempty) hcomment (Text.not_mem_of_isPlain rfl hname), List.map_append,
    List.map_cons, Indentation.map_trimLeft_indentLine, hbody]
  exact congrArg (fun line => line :: _) hfirst

/-- The lines of a member begin with its first line. -/
theorem exists_contents_cons (indentation : Indentation) (finalFields : Bool) {member : Member}
    (h : member.Regular) :
    ∃ others, member.contents indentation finalFields = member.firstLine finalFields :: others := by
  cases member with
  | method declared => exact h.elim
  | field declared => exact ⟨_, contents_field h⟩
  | array declared => exact ⟨_, contents_array h⟩
  | nested inner => exact ⟨_, contents_nested h⟩

/-- The lines of members that are followed by different lines tell what is on their first lines. -/
theorem shell_eq_of_contents_append_eq {first second : Member} (hfirst : first.Regular)
    (hsecond : second.Regular) {before after : List (List Char)}
    (h : first.contents indentation finalFields ++ before
      = second.contents indentation finalFields ++ after) : first.shell = second.shell := by
  obtain ⟨firstLines, hfirstLines⟩ := exists_contents_cons indentation finalFields hfirst
  obtain ⟨secondLines, hsecondLines⟩ := exists_contents_cons indentation finalFields hsecond
  rw [hfirstLines, hsecondLines] at h
  exact shell_eq_of_firstLine_eq hfirst hsecond (List.cons.inj h).1

/-- The lines of a member do not begin with the end of a class. -/
theorem contents_append_ne_end {member : Member} (h : member.Regular)
    (before after : List (List Char)) :
    member.contents indentation finalFields ++ before ≠ "\x7d".toList :: after := by
  obtain ⟨others, hcontents⟩ := exists_contents_cons indentation finalFields h
  obtain ⟨rest, hfirst⟩ := exists_firstLine_cons finalFields h
  rw [hcontents, hfirst]
  intro heq
  exact absurd (List.cons.inj (List.cons.inj heq).1).1 (by decide)

end Member

/-! ## Trees -/

mutual

/-- A member in which `keepEmpty` is forgotten of all classes with members. -/
def Member.forgetKeep : Member → Member
  | .method declared => .method declared
  | .field declared => .field declared
  | .array declared => .array declared
  | .nested inner => .nested inner.forgetKeep

/-- A class in which `keepEmpty` is forgotten of all classes with members. -/
def JavaClass.forgetKeep : JavaClass → JavaClass
  | ⟨name, isStatic, keepEmpty, comment, members⟩ =>
    ⟨name, isStatic, keepEmpty && members.isEmpty, comment, Member.forgetKeepAll members⟩

/-- Members in which `keepEmpty` is forgotten of all classes with members. -/
def Member.forgetKeepAll : List Member → List Member
  | [] => []
  | member :: others => member.forgetKeep :: Member.forgetKeepAll others

end

/-- There are as many members as before. -/
theorem Member.isEmpty_forgetKeepAll (members : List Member) :
    (Member.forgetKeepAll members).isEmpty = members.isEmpty := by
  cases members <;> rfl

/-- A class that is not empty has members or is kept without any. -/
theorem JavaClass.keepEmpty_and_isEmpty {javaClass : JavaClass} (h : javaClass.isEmpty = false) :
    (javaClass.keepEmpty && javaClass.members.isEmpty) = javaClass.members.isEmpty := by
  rw [javaClass.isEmpty_eq] at h
  cases hmembers : javaClass.members with
  | nil => simpa [hmembers] using h
  | cons member others => simp

mutual

/-- The lines of a member tell the member and where it ends. -/
theorem Member.contents_append_inj : (first second : Member) → (before after : List (List Char)) →
    (∀ other, first.Reaches other → other.Regular) →
    (∀ other, second.Reaches other → other.Regular) →
    first.contents indentation finalFields ++ before
        = second.contents indentation finalFields ++ after →
      first.forgetKeep = second.forgetKeep ∧ before = after
  | .method first, _, _, _, hfirst, _, _ => (hfirst _ (.refl _)).elim
  | .field first, second, before, after, hfirst, hsecond, h => by
    have hself := hfirst _ (.refl _)
    have hother := hsecond _ (.refl _)
    have hshell := Member.shell_eq_of_contents_append_eq hself hother h
    cases second with
    | method second => exact hother.elim
    | field second =>
        obtain rfl : first = second := Member.field.inj hshell
        exact ⟨rfl, List.append_cancel_left h⟩
    | array second => exact nomatch hshell
    | nested second => exact nomatch hshell
  | .array first, second, before, after, hfirst, hsecond, h => by
    have hself := hfirst _ (.refl _)
    have hother := hsecond _ (.refl _)
    have hshell := Member.shell_eq_of_contents_append_eq hself hother h
    cases second with
    | method second => exact hother.elim
    | field second => exact nomatch hshell
    | array second =>
        obtain ⟨name, elements, comment⟩ := first
        obtain ⟨otherName, otherElements, otherComment⟩ := second
        obtain ⟨rfl, -, rfl⟩ := ResourceArray.mk.inj (Member.array.inj hshell)
        rw [Member.contents_array hself, Member.contents_array hother, List.cons_append,
          List.cons_append, List.append_assoc, List.append_assoc] at h
        obtain ⟨rfl, hrest⟩ := ResourceArray.rowLines_append_inj (List.cons.inj h).2
        exact ⟨rfl, hrest⟩
    | nested second => exact nomatch hshell
  | .nested first, second, before, after, hfirst, hsecond, h => by
    have hself := hfirst _ (.refl _)
    have hother := hsecond _ (.refl _)
    have hshell := Member.shell_eq_of_contents_append_eq hself hother h
    cases second with
    | method second => exact hother.elim
    | field second => exact nomatch hshell
    | array second => exact nomatch hshell
    | nested second =>
        obtain ⟨hclass, hrest⟩ :=
          JavaClass.contents_append_inj first second before after hfirst hsecond hshell h
        exact ⟨congrArg Member.nested hclass, hrest⟩

/-- The lines of a class tell the class and where it ends. -/
theorem JavaClass.contents_append_inj : (first second : JavaClass) →
    (before after : List (List Char)) →
    (∀ other, (Member.nested first).Reaches other → other.Regular) →
    (∀ other, (Member.nested second).Reaches other → other.Regular) →
    (Member.nested first).shell = (Member.nested second).shell →
    (Member.nested first).contents indentation finalFields ++ before
        = (Member.nested second).contents indentation finalFields ++ after →
      first.forgetKeep = second.forgetKeep ∧ before = after
  | ⟨name, isStatic, keepEmpty, comment, members⟩,
      ⟨otherName, otherStatic, otherKeep, otherComment, otherMembers⟩, before, after, hfirst,
      hsecond, hshell, h => by
    obtain ⟨rfl, rfl, -, rfl, -⟩ := JavaClass.mk.inj (Member.nested.inj hshell)
    obtain ⟨hself, hmembers⟩ := Member.forall_reaches_nested.1 hfirst
    obtain ⟨hother, hotherMembers⟩ := Member.forall_reaches_nested.1 hsecond
    rw [Member.contents_nested hself, Member.contents_nested hother, List.cons_append,
      List.cons_append, List.append_assoc, List.append_assoc] at h
    obtain ⟨hbody, hrest⟩ := Member.bodyContents_append_inj members otherMembers before after
      hmembers hotherMembers (List.cons.inj h).2
    have hkeep := JavaClass.keepEmpty_and_isEmpty hself.2.2
    have hotherKeep := JavaClass.keepEmpty_and_isEmpty hother.2.2
    have hnone := congrArg List.isEmpty hbody
    rw [Member.isEmpty_forgetKeepAll, Member.isEmpty_forgetKeepAll] at hnone
    -- Without members both are kept when empty, or they would not have been written.
    refine ⟨?_, hrest⟩
    rw [JavaClass.forgetKeep, JavaClass.forgetKeep, hkeep, hotherKeep, hnone, hbody]

/-- The lines of members in front of the end of their class tell the members. -/
theorem Member.bodyContents_append_inj : (first second : List Member) →
    (before after : List (List Char)) →
    (∀ member ∈ first, ∀ other, member.Reaches other → other.Regular) →
    (∀ member ∈ second, ∀ other, member.Reaches other → other.Regular) →
    first.flatMap (Member.contents indentation finalFields) ++ "\x7d".toList :: before
        = second.flatMap (Member.contents indentation finalFields) ++ "\x7d".toList :: after →
      Member.forgetKeepAll first = Member.forgetKeepAll second ∧ before = after
  | [], [], _, _, _, _, h => ⟨rfl, (List.cons.inj h).2⟩
  -- Where one class ends, the other cannot go on: no member begins with a brace.
  | [], second :: others, before, after, _, hsecond, h => by
    have hregular := hsecond second List.mem_cons_self _ (.refl second)
    rw [List.flatMap_cons, List.append_assoc] at h
    exact absurd h.symm (Member.contents_append_ne_end hregular _ _)
  | first :: others, [], before, after, hfirst, _, h => by
    have hregular := hfirst first List.mem_cons_self _ (.refl first)
    rw [List.flatMap_cons, List.append_assoc] at h
    exact absurd h (Member.contents_append_ne_end hregular _ _)
  | first :: others, second :: more, before, after, hfirst, hsecond, h => by
    rw [List.flatMap_cons, List.flatMap_cons, List.append_assoc, List.append_assoc] at h
    obtain ⟨hmember, hothers⟩ := Member.contents_append_inj first second _ _
      (hfirst first List.mem_cons_self) (hsecond second List.mem_cons_self) h
    obtain ⟨hmembers, hrest⟩ := Member.bodyContents_append_inj others more before after
      (fun member hmember => hfirst member (List.mem_cons_of_mem first hmember))
      (fun member hmember => hsecond member (List.mem_cons_of_mem second hmember)) hothers
    exact ⟨by rw [Member.forgetKeepAll, Member.forgetKeepAll, hmember, hmembers], hrest⟩

end

/-- What new pens write for classes of constants tells the classes apart, up to `keepEmpty` in
classes with members. Both pens indent in the same way and both make fields final or neither. -/
theorem JavaClass.write_injective {first second : JavaClass} (finalFields : Bool)
    (indentation : Indentation) {sink : Sink} (hsink : sink.Unlimited)
    (hfirst : ∀ member, (Member.nested first).Reaches member → member.Regular)
    (hsecond : ∀ member, (Member.nested second).Reaches member → member.Regular)
    (h : (first.write finalFields { indentation, sink }).state.sink.written
      = (second.write finalFields { indentation, sink }).state.sink.written) :
    first.forgetKeep = second.forgetKeep := by
  have hfirstWritten := (first.written_write finalFields indentation hsink).2
  have hsecondWritten := (second.written_write finalFields indentation hsink).2
  rw [h, hsecondWritten] at hfirstWritten
  have hrendering := Text.encode_inj (List.append_cancel_left hfirstWritten)
  have hcontents : (Member.nested first).contents indentation finalFields
      = (Member.nested second).contents indentation finalFields := by
    rw [Member.contents, Member.contents, Member.rendering, Member.rendering, hrendering]
  have hmember := Member.contents_append_inj (.nested first) (.nested second) [] [] hfirst hsecond
    (congrArg (· ++ []) hcontents)
  exact Member.nested.inj hmember.1

/-- A class that is kept when empty reads like one that is not, since both have members: an
identifier, a number, a string of signs, an array of two rows and a class without members. -/
theorem JavaClass.write_injective_kept :
    let members : List Member := [.field ⟨"r_1", .resource ⟨1⟩, {}⟩, .field ⟨"i", .int (-1), {}⟩,
      .field ⟨"s", .string "\";\x7d", {}⟩, .array ⟨"a", [⟨1⟩, ⟨2⟩, ⟨3⟩, ⟨4⟩, ⟨5⟩], {}⟩,
      .nested ⟨"B", true, true, {}, []⟩]
    let first : JavaClass := ⟨"A", false, true, {}, members⟩
    let second : JavaClass := ⟨"A", false, false, {}, members⟩
    Sink.Unlimited {} ∧
      (∀ member, (Member.nested first).Reaches member → member.Regular) ∧
      (∀ member, (Member.nested second).Reaches member → member.Regular) ∧
      (first.write true { indentation := .spaces 0 }).state.sink.written
        = (second.write true { indentation := .spaces 0 }).state.sink.written ∧
      first.forgetKeep = second.forgetKeep := by
  intro members first second
  have hsink : Sink.Unlimited {} := rfl
  have hmembers : ∀ member ∈ members, ∀ other, member.Reaches other → other.Regular := by
    have hnames : ∀ name ∈ ["r_1", "i", "s", "a", "B"], Text.isPlain name = true := by decide
    simpa [members, Member.forall_reaches_nested, Member.forall_reaches_array,
      Member.forall_reaches_field, Member.Regular, JavaClass.isEmpty] using hnames
  have hname : Text.isPlain "A" = true := by decide
  have hfirst : ∀ member, (Member.nested first).Reaches member → member.Regular :=
    Member.forall_reaches_nested.2 ⟨⟨rfl, hname, rfl⟩, hmembers⟩
  have hsecond : ∀ member, (Member.nested second).Reaches member → member.Regular :=
    Member.forall_reaches_nested.2 ⟨⟨rfl, hname, rfl⟩, hmembers⟩
  have hrendering : first.rendering (.spaces 0) true = second.rendering (.spaces 0) true := rfl
  have hwritten : (first.write true { indentation := .spaces 0 }).state.sink.written
      = (second.write true { indentation := .spaces 0 }).state.sink.written := by
    rw [← Array.toList_inj, (first.written_write true (.spaces 0) hsink).2,
      (second.written_write true (.spaces 0) hsink).2, hrendering]
  exact ⟨hsink, hfirst, hsecond, hwritten,
    JavaClass.write_injective true (.spaces 0) hsink hfirst hsecond hwritten⟩

end JavaResources
