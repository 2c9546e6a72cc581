import JavaResources.Proofs.SourceFile.Style

/-!
# The parts of a file

A file is the notice, the declaration of its package, a blank line, and its class. The class is not
written by a new pen but by one that has written the lines above it, and still `write_parts` says
that it comes out as a new pen writes it: whatever the name of the package is, that pen stands at
the start of a line and at level zero. The text of the file is the same when it is rendered.
-/

namespace JavaResources

open Command Stroke

/-- An empty class has no text. -/
theorem JavaClass.rendering_of_isEmpty (indentation : Indentation) (finalFields : Bool)
    {javaClass : JavaClass} (h : javaClass.isEmpty = true) :
    javaClass.rendering indentation finalFields = [] := by
  cases javaClass
  rw [rendering, if_pos h]

namespace SourceFile

/-- The text of a file: the preamble, the end of its last line, and the text of the class. -/
def text (file : SourceFile) : List Char :=
  (preamble file.package).toList
    ++ '\n' :: file.root.rendering file.style.indentation file.style.finalFields

/-- A file is written as its text. -/
theorem write_text (file : SourceFile) {sink : Sink} (hsink : sink.Unlimited) :
    (file.write sink).fault = none ∧
      (file.write sink).state.sink.written.toList
        = sink.written.toList ++ Text.encode file.text := by
  have hwritten := file.write_ink hsink
  rw [ink_layout, textAt, JavaClass.ink_layout] at hwritten
  exact hwritten

/-- A pen that was not stopped has finished the text that its sink has. -/
theorem finished_eq {outcome : Outcome Pen.Fault Pen} {text : List Char}
    (hfault : outcome.fault = none)
    (hwritten : outcome.state.sink.written.toList = Text.encode text) :
    finished outcome = .ok (String.ofList text) := by
  have hbytes : outcome.state.sink.written = (Text.encode text).toArray :=
    Array.toList_inj.1 hwritten
  simp only [finished, hfault, hbytes, Text.decode?_encode]

/-- A file is rendered as its text. -/
theorem render_eq (file : SourceFile) : file.render = .ok (String.ofList file.text) := by
  have hsink : Sink.Unlimited {} := rfl
  have hnone : ({} : Sink).written.toList = [] := rfl
  obtain ⟨hfault, hwritten⟩ := file.write_text hsink
  rw [hnone, List.nil_append] at hwritten
  rw [render, finished_eq hfault hwritten]

/-- On a sink that refuses nothing, a file is the notice, the declaration of its package with the
name as it is, a blank line, and the text that a new pen in the style of the file writes of the
class alone, which is none at all for an empty class. Rendering the file succeeds and gives the same
text. A plain file is written like one in the usual style with its fields final or not. -/
theorem write_parts (file : SourceFile) :
    ∃ body : String,
      (∀ sink : Sink, sink.Unlimited →
        let alone := file.root.write file.style.finalFields
          { indentation := file.style.indentation, sink }
        alone.fault = none ∧
          alone.state.sink.written.toList = sink.written.toList ++ Text.encode body.toList) ∧
      (file.root.isEmpty = true → body = "") ∧
      (∀ sink : Sink, sink.Unlimited →
        (file.write sink).fault = none ∧
          (file.write sink).state.sink.written.toList = sink.written.toList
            ++ Text.encode (notice ++ "package " ++ file.package ++ ";\n" ++ "\n" ++ body).toList) ∧
      file.render = .ok (notice ++ "package " ++ file.package ++ ";\n" ++ "\n" ++ body) ∧
      ∀ (finalFields : Bool) (sink : Sink),
        (plain file.root file.package finalFields).write sink
          = SourceFile.write { file with style := { ({} : Style) with finalFields } } sink := by
  let body := String.ofList (file.root.rendering file.style.indentation file.style.finalFields)
  have hbody : body.toList = file.root.rendering file.style.indentation file.style.finalFields :=
    String.toList_ofList
  have htext : (notice ++ "package " ++ file.package ++ ";\n" ++ "\n" ++ body).toList
      = file.text := by
    rw [String.toList_append, String.toList_append, hbody, List.append_assoc]
    rfl
  refine ⟨body, fun sink hsink => ?_, fun hempty => ?_, fun sink hsink => ?_, ?_,
    fun finalFields sink => rfl⟩
  · rw [hbody]
    exact file.root.written_write _ _ hsink
  · have hnone := JavaClass.rendering_of_isEmpty
      file.style.indentation file.style.finalFields hempty
    exact String.toList_inj.1 (hbody.trans hnone)
  · rw [htext]
    exact file.write_text hsink
  · rw [render_eq, ← htext, String.ofList_toList]

/-- Of a class that is left out with its comment nothing is written, below a package that has a line
feed in its name. -/
theorem write_parts_empty :
    let file : SourceFile := ⟨⟨"R", false, false, { lines := ["c"] },
      [.nested ⟨"E", true, false, {}, []⟩]⟩, "a\n b", {}⟩
    let sink : Sink := { chunk := some 1, interrupts := true }
    sink.Unlimited ∧ file.root.isEmpty = true ∧
      (file.write sink).state.sink.written.toList
        = Text.encode (notice ++ "package a\n b;\n\n").toList ∧
      file.render = .ok (notice ++ "package a\n b;\n\n") := by
  intro file sink
  have hsink : sink.Unlimited := rfl
  have hempty : file.root.isEmpty = true := rfl
  obtain ⟨body, -, hbody, hwritten, hrendered, -⟩ := write_parts file
  obtain rfl : body = "" := hbody hempty
  have htext : notice ++ "package " ++ file.package ++ ";\n" ++ "\n" ++ ""
      = notice ++ "package a\n b;\n\n" := by
    simp [file, String.append_assoc]
  have hnone : sink.written.toList = [] := rfl
  have hbytes := (hwritten sink hsink).2
  rw [htext, hnone, List.nil_append] at hbytes
  rw [htext] at hrendered
  exact ⟨hsink, hempty, hbytes, hrendered⟩

end SourceFile

end JavaResources
