import JavaResources.Proofs.Layout.MethodNames
import JavaResources.Proofs.Layout.Methods
import JavaResources.Proofs.SourceFile.Style

/-!
# Methods in a file

`write_methodNames` says what of a method gets into a file: nothing of its name, whatever happens to
the sink, and its signature and statements just as they were given.
-/

namespace JavaResources.SourceFile

/-- Classes that differ only in the names of methods, at any depth, are written in the same way: in
every package and style, and on every sink, the bytes on the sink, the fault and the state of the
pen are the same. Their classes in the same places are empty or not alike. On a sink that refuses
nothing, the lines of a file show the methods that are reached from its class, each in its turn and
at its level: the lines of the signature and of the statements in order, each behind its
indentation. -/
theorem write_methodNames {first second : JavaClass}
    (h : first.forgetMethodNames = second.forgetMethodNames) :
    (∀ (package : String) (style : Style) (sink : Sink),
      SourceFile.write ⟨first, package, style⟩ sink
        = SourceFile.write ⟨second, package, style⟩ sink) ∧
    (∀ places : List Nat, (JavaClass.descend places first).map JavaClass.isEmpty
      = (JavaClass.descend places second).map JavaClass.isEmpty) ∧
    (∀ (package : String) (style : Style) (sink : Sink), sink.Unlimited →
      ∃ text : List Char,
        (SourceFile.write ⟨first, package, style⟩ sink).fault = none ∧
        (SourceFile.write ⟨first, package, style⟩ sink).state.sink.written.toList
          = sink.written.toList ++ Text.encode text ∧
        Method.Shown style.indentation (first.methods 0) (Text.lines text)) ∧
    ∀ method : Method, (∃ level, (level, method) ∈ first.methods 0)
      ↔ (Member.nested first).Reaches (.method method) := by
  refine ⟨fun package style sink => ?_, JavaClass.map_isEmpty_descend_eq h,
    fun package style sink hsink => ?_, fun method => first.exists_mem_methods_iff 0⟩
  · have hlayout := JavaClass.layout_eq_of_forgetMethodNames_eq h style.finalFields
    simp only [write, layout, hlayout]
  · obtain ⟨hfault, hwritten⟩ := write_ink ⟨first, package, style⟩ hsink
    have hshown := first.methods_shown style.indentation style.finalFields 0
    refine ⟨_, hfault, hwritten, ?_⟩
    rw [ink_layout, Text.lines_append_cons]
    exact hshown.append_left _

/-- Methods under other names, one of them in a nested class, reach a sink that refuses after
twenty bytes in the same way, and a sink that takes three bytes at a time gets them as they are. -/
theorem write_methodNames_stopped :
    let first : Method := ⟨"m", "void m()\n throws E", ["a;\n\nb;"]⟩
    let second : Method := ⟨"n", "int n()", []⟩
    let root (outer inner : String) : JavaClass := ⟨"R", false, false, {},
      [.method { first with name := outer },
        .nested ⟨"S", true, false, {}, [.method { second with name := inner }]⟩]⟩
    let sink : Sink := { space := some 20, chunk := some 3, interrupts := true }
    (root "m" "n").forgetMethodNames = (root "" "m").forgetMethodNames ∧
      SourceFile.write ⟨root "m" "n", "a", {}⟩ sink = SourceFile.write ⟨root "" "m", "a", {}⟩ sink ∧
      Sink.Unlimited { chunk := some 3 } ∧
      (∃ text : List Char,
        (SourceFile.write ⟨root "m" "n", "a", {}⟩ { chunk := some 3 }).state.sink.written.toList
          = Text.encode text ∧
        Method.Shown .java [(1, first), (2, second)] (Text.lines text)) ∧
      (Member.nested (root "m" "n")).Reaches (.method second) := by
  intro first second root sink
  have hnames : (root "m" "n").forgetMethodNames = (root "" "m").forgetMethodNames := rfl
  have hsink : Sink.Unlimited { chunk := some 3 } := rfl
  obtain ⟨hwrite, -, htext, hreaches⟩ := write_methodNames hnames
  obtain ⟨text, -, hwritten, hshown⟩ := htext "a" {} { chunk := some 3 } hsink
  exact ⟨hnames, hwrite "a" {} sink, hsink, ⟨text, hwritten, hshown⟩,
    (hreaches second).1 ⟨2, List.mem_cons_of_mem _ (.head _)⟩⟩

end JavaResources.SourceFile
