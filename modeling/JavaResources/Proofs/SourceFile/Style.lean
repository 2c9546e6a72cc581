import JavaResources.Proofs.Layout.FinalFields
import JavaResources.Proofs.Pen.LeveledLines
import JavaResources.Proofs.SourceFile.LimitedSpace

/-!
# What the style of a file changes

A file is written in a style: with constant fields final or not, and with a unit of indentation.
`write_finalFields` says that the one shows in the declarations of fields and nowhere else, and
`write_leveledLines` that the other shows in front of the lines of the class and nowhere else.
-/

namespace JavaResources

open Command Stroke

namespace SourceFile

/-- The text above the class: the notice, the declaration of the package, and the start of a blank
line. -/
def preamble (package : String) : String :=
  notice ++ "package " ++ package ++ ";\n"

/-- The commands above the class write the preamble and end its last line. -/
theorem text_preambleLayout (package : String) :
    (preambleLayout package).flatMap Command.text = (preamble package).toList ++ ['\n'] := by
  simp only [preambleLayout, preamble, Command.text, List.flatMap_cons, List.flatMap_nil,
    String.toList_append, List.append_assoc, List.append_nil]
  rfl

/-- A file draws its preamble, a line end, and its class. -/
theorem strokesAll_layout (file : SourceFile) :
    strokesAll 0 file.layout = ofText 0 (preamble file.package).toList
      ++ ⟨0, '\n'⟩ :: strokesAll 0 (file.root.layout file.style.finalFields) := by
  have hwrites : (preambleLayout file.package).all writesText = true := rfl
  rw [layout, strokesAll_append, (Closed.of_writesText hwrites).level,
    strokesAll_of_writesText hwrites, text_preambleLayout, ofText_append, List.append_assoc]
  rfl

/-- A file is written as the ink of its strokes. -/
theorem write_ink (file : SourceFile) {sink : Sink} (hsink : sink.Unlimited) :
    (file.write sink).fault = none ∧
      (file.write sink).state.sink.written.toList = sink.written.toList
        ++ Text.encode (ink file.style.indentation true (strokesAll 0 file.layout)) := by
  have hwrote : Pen.Wrote sink _ (file.write sink) :=
    Pen.performAll_wrote (file.layout_closed.permitted_at 0)
  exact hwrote.of_unlimited hsink

/-- The ink of a file is its preamble, a line feed, and the text of its class. -/
theorem ink_layout (file : SourceFile) :
    ink file.style.indentation true (strokesAll 0 file.layout)
      = (preamble file.package).toList ++ '\n' :: textAt file.style.indentation 0
          (file.root.layout file.style.finalFields) := by
  rw [strokesAll_layout, ink_append, ink_ofText_zero]
  rfl

end SourceFile

/-! ## Final fields -/

/-- The text of a file with final fields is the text with fields that are not final, but for the
word `final ` in the declaration of each field that is reached from the class. The declaration
stands in the place of the field, which is counted from the line below the preamble on, and the word
behind the `public static ` that the declaration begins with. So the text has as many lines, and six
bytes more for each field. Without fields the texts are the same. The fields in question are those
that are reached through the members of classes, and no class that is left out has any. -/
theorem SourceFile.write_finalFields (root : JavaClass) (package : String)
    (indentation : Indentation) (sink : Sink) (hsink : sink.Unlimited) :
    let fields := root.fields (Text.lines (preamble package).toList).length 0
    ∃ plain final : List Char,
      (∀ finalFields : Bool,
        (SourceFile.write ⟨root, package, { finalFields, indentation }⟩ sink).fault = none ∧
        (SourceFile.write ⟨root, package, { finalFields, indentation }⟩ sink
            ).state.sink.written.toList
          = sink.written.toList ++ Text.encode (if finalFields then final else plain)) ∧
      Field.MadeFinal indentation 0 fields plain final ∧
      (Text.lines final).length = (Text.lines plain).length ∧
      (Text.encode final).length = (Text.encode plain).length + 6 * fields.length ∧
      (fields = [] → final = plain) ∧
      ∀ field : Field, (∃ placed ∈ fields, placed.field = field)
        ↔ (Member.nested root).Reaches (.field field) := by
  intro fields
  let text (finalFields : Bool) : List Char :=
    (preamble package).toList ++ '\n' :: textAt indentation 0 (root.layout finalFields)
  have hfinal : Field.MadeFinal indentation 0 fields (text false) (text true) := by
    have hlines : (Text.lines (preamble package).toList).length
        = 0 + (preamble package).toList.count '\n' + 1 := by
      rw [Text.lines, Text.length_pieces, Nat.zero_add]
    have hnone : Field.MadeFinal indentation
        (0 + (preamble package).toList.count '\n' + 1 + lineFeeds (root.layout false)) [] [] [] :=
      .same _ []
    have hroot := root.madeFinal 0 hnone
    simp only [List.append_nil, ← hlines] at hroot
    exact hroot.append_left (preamble package).toList
  refine ⟨text false, text true, fun finalFields => ?_, hfinal, hfinal.length_lines,
    hfinal.length_encode, fun hnone => ?_, fun field => root.exists_mem_fields_iff _ 0⟩
  · obtain ⟨hfault, hwritten⟩ :=
      write_ink ⟨root, package, { finalFields, indentation }⟩ hsink
    rw [ink_layout] at hwritten
    refine ⟨hfault, hwritten.trans ?_⟩
    cases finalFields <;> rfl
  · rw [hnone] at hfinal
    exact hfinal.eq_of_nil

/-- A field with a comment, and one in a nested class whose value has two lines, are made final. The
signature of a method that looks like the first field stays as it is, and so does an empty class. -/
theorem SourceFile.write_finalFields_nested :
    let first : Field := ⟨"x", .int 1, { lines := ["c"] }⟩
    let second : Field := ⟨"s", .string "a\nb", {}⟩
    let root : JavaClass := ⟨"R", false, false, {},
      [.method ⟨"m", "public static int x=1;", []⟩, .field first,
        .nested ⟨"E", true, false, {}, []⟩, .nested ⟨"S", true, false, {}, [.field second]⟩]⟩
    let top : Nat := (Text.lines (preamble "a").toList).length
    let written (finalFields : Bool) : List UInt8 :=
      (SourceFile.write ⟨root, "a", { finalFields, indentation := .tab }⟩ { chunk := some 1 }
        ).state.sink.written.toList
    Sink.Unlimited { chunk := some 1 } ∧
      (∃ plain final : List Char, written false = Text.encode plain ∧
        written true = Text.encode final ∧
        Field.MadeFinal .tab 0 [⟨top + 6, 1, first⟩, ⟨top + 9, 2, second⟩] plain final) ∧
      (written true).length = (written false).length + 12 := by
  intro first second root top written
  have hsink : Sink.Unlimited { chunk := some 1 } := rfl
  have hfields (line : Nat) :
      root.fields line 0 = [⟨line + 6, 1, first⟩, ⟨line + 9, 2, second⟩] := by
    simp only [root, first, second]
    with_unfolding_all rfl
  obtain ⟨plain, final, hwritten, hplaces, -, hlength, -⟩ :=
    SourceFile.write_finalFields root "a" .tab { chunk := some 1 } hsink
  have hplain : written false = Text.encode plain := (hwritten false).2
  have hfinal : written true = Text.encode final := (hwritten true).2
  rw [hfields] at hplaces
  refine ⟨hsink, ⟨plain, final, hplain, hfinal, hplaces⟩, ?_⟩
  rw [hplain, hfinal]
  exact hlength

/-! ## Indentation -/

/-- The lines of a file and the levels that they are indented to do not depend on the unit of
indentation. A file is its lines joined by line feeds, each with its text behind as many units as
its level says. No line without text is indented, and none of those above the class is, whatever
line feeds there are in the name of the package. So files that differ in the unit alone have the
same number of lines, and the same lines once the units are taken away. -/
theorem SourceFile.write_leveledLines (root : JavaClass) (package : String) (finalFields : Bool) :
    ∃ top body : List LeveledLine,
      top.map LeveledLine.text = Text.lines (preamble package).toList ∧
      (∀ line ∈ top, line.level = 0) ∧
      ∀ (indentation : Indentation) (sink : Sink), sink.Unlimited →
        ∃ text : List Char,
          (SourceFile.write ⟨root, package, { finalFields, indentation }⟩ sink).fault = none ∧
          (SourceFile.write ⟨root, package, { finalFields, indentation }⟩ sink
              ).state.sink.written.toList = sink.written.toList ++ Text.encode text ∧
          text = Text.joined '\n' ((top ++ body).map (LeveledLine.inked indentation)) ∧
          (Text.lines text).length = (top ++ body).length ∧
          List.zipWith (LeveledLine.stripped indentation) (top ++ body) (Text.lines text)
            = (top ++ body).map LeveledLine.text := by
  have hend : Stroke.endsLine ⟨0, '\n'⟩ = true := rfl
  obtain ⟨htext, hlevel⟩ := leveledLines_ofText_zero (preamble package).toList
  refine ⟨leveledLines (ofText 0 (preamble package).toList),
    leveledLines (strokesAll 0 (root.layout finalFields)), htext, hlevel,
    fun indentation sink hsink => ?_⟩
  obtain ⟨hfault, hwritten⟩ := write_ink ⟨root, package, { finalFields, indentation }⟩ hsink
  rw [← leveledLines_append_cons _ _ hend]
  rw [strokesAll_layout, ink_eq_leveledLines] at hwritten
  have hlines := LeveledLine.lines_joined_inked indentation (leveledLines_ne_nil
    (ofText 0 (preamble package).toList ++ ⟨0, '\n'⟩ :: strokesAll 0 (root.layout finalFields)))
  refine ⟨_, hfault, hwritten, rfl, ?_, ?_⟩
  · rw [hlines, List.length_map]
  · rw [hlines, List.zipWith_map_right, List.zipWith_self]
    simp only [LeveledLine.stripped_inked]

/-- With tabs and without any indentation, a file whose package has a line feed in its name has the
same number of lines. -/
theorem SourceFile.write_leveledLines_package :
    let root : JavaClass := ⟨"R", false, false, {},
      [.method ⟨"m", "void m()", ["  a;\n\n b;"]⟩, .nested ⟨"E", true, false, {}, []⟩]⟩
    let written (indentation : Indentation) : List UInt8 :=
      (SourceFile.write ⟨root, "a\n b", { indentation }⟩ { chunk := some 1 }
        ).state.sink.written.toList
    Sink.Unlimited { chunk := some 1 } ∧
      ∃ first second : List Char, written .tab = Text.encode first ∧
        written (.spaces 0) = Text.encode second ∧
        (Text.lines first).length = (Text.lines second).length := by
  intro root written
  have hsink : Sink.Unlimited { chunk := some 1 } := rfl
  obtain ⟨top, body, -, -, hlines⟩ := SourceFile.write_leveledLines root "a\n b" true
  obtain ⟨first, -, hfirst, -, hcount, -⟩ := hlines .tab { chunk := some 1 } hsink
  obtain ⟨second, -, hsecond, -, hsame, -⟩ := hlines (.spaces 0) { chunk := some 1 } hsink
  exact ⟨hsink, first, second, hfirst, hsecond, hcount.trans hsame.symm⟩

end JavaResources
