import JavaResources.Proofs.Layout.Empty
import JavaResources.Proofs.Layout.RenderedLines
import JavaResources.Proofs.Text.BraceDepth

/-!
# Indentation by open braces

A reader who knows nothing of members can tell how deep a line of a class is: by the braces that are
open before it. `JavaClass.write_braces` says that every line of a class is indented by their number
and that all braces are closed in the end. The texts in the class have to keep to their lines and to
leave braces alone at the places where they are looked for.
-/

namespace JavaResources

open Text

/-- The text may begin a line: not with a blank, which would look like indentation, and not with a
brace that closes another one. -/
def Text.BeginsLine (text : List Char) : Prop :=
  ∃ c rest, text = c :: rest ∧ isBlank c = false ∧ c ≠ '\x7d'

/-- A member without a comment whose texts stay on their lines. The signature and the statements of
a method may begin a line, and no statement ends with an open brace. A statement may be empty. -/
def Member.Tidy : Member → Prop
  | .method declared =>
    BeginsLine declared.signature.toList ∧ '\n' ∉ declared.signature.toList ∧
      ∀ statement ∈ declared.statements, statement ≠ "" →
        BeginsLine statement.toList ∧ '\n' ∉ statement.toList ∧
          statement.toList.getLast? ≠ some '\x7b'
  | .field declared =>
    declared.comment = {} ∧ '\n' ∉ declared.name.toList ∧
      ∀ text, declared.value = .string text → '\n' ∉ text.toList
  | .array declared => declared.comment = {} ∧ '\n' ∉ declared.name.toList
  | .nested inner => inner.comment = {} ∧ '\n' ∉ inner.name.toList

variable {indentation : Indentation}

/-- A line that is known by its first character and by the brace at its end. -/
theorem Indentation.FollowsBraces.head {c sign : Char} {line rest text : List Char}
    (hrest : line = c :: rest) (htext : line = text ++ [sign, '\x7b']) (hc : isBlank c = false)
    (hcloses : c ≠ '\x7d') : indentation.FollowsBraces 0 [line] 1 := by
  have hopens : line.getLast? = some '\x7b' := by simp [htext]
  rw [hrest] at hopens ⊢
  exact .opening hc hcloses hopens

/-- A field is a line without braces at its ends. -/
theorem Field.followsBraces (finalFields : Bool) {field : Field}
    (h : (Member.field field).Tidy) :
    indentation.FollowsBraces 0 (Text.lines (field.rendering finalFields)) 0 := by
  obtain ⟨hcomment, hname, hstring⟩ := h
  obtain ⟨rest, hrest⟩ := field.exists_line_cons finalFields
  have hopens : (field.line finalFields).getLast? ≠ some '\x7b' := by
    rw [field.getLast?_line]
    decide
  rw [hrest] at hopens
  rw [lines_rendering finalFields hcomment hname (Constant.lineFeed_not_mem_text hstring), hrest]
  exact .flat (by decide) (by decide) hopens

/-- An array opens a brace, has its rows and closes the brace. -/
theorem ResourceArray.followsBraces {array : ResourceArray} (h : (Member.array array).Tidy) :
    indentation.FollowsBraces 0 (Text.lines (array.rendering indentation)) 0 := by
  obtain ⟨hcomment, hname⟩ := h
  obtain ⟨rest, hrest⟩ := exists_headLine_cons array.name
  obtain ⟨text, htext⟩ := exists_headLine_append array.name
  have hrows : indentation.FollowsBraces 0
      ((rowLines (rows array.elements)).flatMap fun line => [line]) 0 := by
    refine .flatMap fun line hline => ?_
    obtain ⟨rest, hcons⟩ := exists_cons_of_mem_rowLines ne_nil_of_mem_rows line hline
    have hopens : line.getLast? ≠ some '\x7b' := by
      intro hlast
      exact absurd (mem_rowLines line hline _ (List.mem_of_getLast? hlast)) (by decide)
    rw [hcons] at hopens ⊢
    exact .flat (by decide) (by decide) hopens
  rw [List.flatMap_singleton'] at hrows
  rw [lines_rendering indentation hcomment hname]
  exact .scope (.head hrest htext (by decide) (by decide)) hrows (by decide)

/-- A method opens a brace, has its statements and closes the brace. -/
theorem Method.followsBraces {method : Method} (h : (Member.method method).Tidy) :
    indentation.FollowsBraces 0 (Text.lines (method.rendering indentation)) 0 := by
  obtain ⟨⟨c, rest, hsignature, hc, hcloses⟩, hline, hstatements⟩ := h
  have hlines : ∀ statement ∈ method.statements, '\n' ∉ statement.toList := by
    intro statement hstatement
    by_cases hempty : statement = ""
    · rw [hempty]
      decide
    · exact (hstatements statement hstatement hempty).2.1
  have hrest : (method.signature ++ " \x7b").toList = c :: (rest ++ [' ', '\x7b']) := by
    simp [hsignature]
  have htext : (method.signature ++ " \x7b").toList
      = method.signature.toList ++ [' ', '\x7b'] := by
    simp
  have hbody : indentation.FollowsBraces 0
      (method.statements.flatMap fun statement => [statement.toList]) 0 := by
    refine .flatMap fun statement hstatement => ?_
    by_cases hempty : statement = ""
    · rw [hempty]
      exact .blank 0
    · obtain ⟨⟨c, rest, htext, hc, hcloses⟩, -, hopens⟩ := hstatements statement hstatement hempty
      rw [htext] at hopens ⊢
      exact .flat hc hcloses hopens
  rw [← List.map_eq_flatMap] at hbody
  rw [lines_rendering indentation hline hlines]
  exact .scope (.head hrest htext hc hcloses) hbody (by decide)

variable (finalFields : Bool)

mutual

/-- The lines of a tidy member follow their braces. -/
theorem Member.followsBraces : (member : Member) →
    (∀ other, member.Reaches other → other.Tidy) →
      indentation.FollowsBraces 0 (Text.lines (member.rendering indentation finalFields)) 0
  | .method declared, h => declared.followsBraces (Member.forall_reaches_method.1 h)
  | .field declared, h => declared.followsBraces finalFields (Member.forall_reaches_field.1 h)
  | .array declared, h => declared.followsBraces (Member.forall_reaches_array.1 h)
  | .nested inner, h => inner.followsBraces h

/-- The lines of a tidy class follow their braces. -/
theorem JavaClass.followsBraces : (javaClass : JavaClass) →
    (∀ other, (Member.nested javaClass).Reaches other → other.Tidy) →
      indentation.FollowsBraces 0 (Text.lines (javaClass.rendering indentation finalFields)) 0
  | ⟨name, isStatic, keepEmpty, comment, members⟩, h => by
    obtain ⟨⟨hcomment, hname⟩, hmembers⟩ := Member.forall_reaches_nested.1 h
    by_cases hempty : JavaClass.isEmpty ⟨name, isStatic, keepEmpty, comment, members⟩ = true
    · rw [JavaClass.lines_rendering_of_isEmpty indentation finalFields hempty]
      exact .blank 0
    · have hbody := Member.followsBraces_body members hmembers
      obtain ⟨rest, hrest⟩ := JavaClass.exists_headLine_cons name isStatic
      obtain ⟨text, htext⟩ := JavaClass.exists_headLine_append name isStatic
      rw [JavaClass.lines_rendering indentation finalFields hempty hcomment hname]
      exact .scope (.head hrest htext (by decide) (by decide)) hbody (by decide)

/-- The lines of tidy members follow their braces. -/
theorem Member.followsBraces_body : (members : List Member) →
    (∀ member ∈ members, ∀ other, member.Reaches other → other.Tidy) →
      indentation.FollowsBraces 0 (Member.bodyLines indentation finalFields members) 0
  | [], _ => ⟨[], rfl, .nil⟩
  | member :: others, h => by
    have hmember := member.followsBraces (h member List.mem_cons_self)
    have hothers := Member.followsBraces_body others fun other hother =>
      h other (List.mem_cons_of_mem member hother)
    exact hmember.append hothers

end

/-- Indentation follows the braces. Of the text that a new pen writes for a tidy class, the lines
that are not empty never close a brace that is not open, each of them is indented by the number of
braces that are open at its first character, and in the end no brace is open. The lines of members
that are left out are empty. -/
theorem JavaClass.write_braces (javaClass : JavaClass) (finalFields : Bool)
    (indentation : Indentation) {sink : Sink} (hsink : sink.Unlimited)
    (h : ∀ member, (Member.nested javaClass).Reaches member → member.Tidy) :
    ∃ text depths,
      (javaClass.write finalFields { indentation, sink }).fault = none ∧
      (javaClass.write finalFields { indentation, sink }).state.sink.written.toList
        = sink.written.toList ++ encode text ∧
      braceDepths? 0 ((Text.lines text).filter (· ≠ [])) = some (depths, 0) ∧
      List.Forall₂ indentation.StandsAt depths ((Text.lines text).filter (· ≠ [])) := by
  obtain ⟨hfault, hwritten⟩ := javaClass.written_write finalFields indentation hsink
  obtain ⟨depths, hdepths, hlines⟩ := javaClass.followsBraces finalFields h
  exact ⟨_, depths, hfault, hwritten, hdepths, hlines⟩

/-- Tabs follow the braces of a method with an empty statement, of an array of two rows and of a
class that is left out, and pass over the braces of a string. -/
theorem JavaClass.write_braces_tab :
    let javaClass : JavaClass := ⟨"A", false, false, {}, [.nested ⟨"B", true, false, {},
      [.method ⟨"m", "void m()", ["if (x) \x7b\x7d", "", "\x7b\x7d"]⟩,
        .array ⟨"ids", [⟨1⟩, ⟨2⟩, ⟨3⟩, ⟨4⟩, ⟨5⟩], {}⟩]⟩,
      .nested ⟨"C", true, false, {}, []⟩, .field ⟨"s", .string "\x7d\x7b", {}⟩]⟩
    Sink.Unlimited {} ∧
      (∀ member, (Member.nested javaClass).Reaches member → member.Tidy) ∧
      ∃ text depths,
        (javaClass.write true { indentation := .tab }).fault = none ∧
        (javaClass.write true { indentation := .tab }).state.sink.written.toList = encode text ∧
        braceDepths? 0 ((Text.lines text).filter (· ≠ [])) = some (depths, 0) ∧
        List.Forall₂ Indentation.tab.StandsAt depths ((Text.lines text).filter (· ≠ [])) := by
  intro javaClass
  have hsink : Sink.Unlimited {} := rfl
  have htidy : ∀ member, (Member.nested javaClass).Reaches member → member.Tidy := by
    simp [javaClass, Member.forall_reaches_nested, Member.forall_reaches_method,
      Member.forall_reaches_array, Member.forall_reaches_field, Member.Tidy, BeginsLine, isBlank]
  exact ⟨hsink, htidy, javaClass.write_braces true .tab hsink htidy⟩

end JavaResources
