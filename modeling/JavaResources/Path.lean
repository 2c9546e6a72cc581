import JavaResources.Text.Lines

/-!
# Paths

A path is a text in which slashes separate names. `Path.resolve` puts one path below another, and a
path that starts with a slash is not put below anything but replaces what was there. Nothing is
normalised: `.`, `..` and doubled slashes stay as they are. `Path.ofPackage` gives the directory of
a Java package and `Path.parent?` the directory that a path lies in.
-/

namespace JavaResources

/-- A path, as the characters of its text. -/
structure Path where
  chars : List Char
  deriving DecidableEq

namespace Path

/-- The path with a given text. -/
def ofString (text : String) : Path :=
  ⟨text.toList⟩

/-- The text of a path. -/
def text (path : Path) : String :=
  String.ofList path.chars

/-- A path that starts with a slash starts at the root. -/
def isAbsolute (path : Path) : Bool :=
  path.chars.head? == some '/'

/-- Put a path below another. An absolute path replaces the other one; before any other a slash is
put, unless nothing or a slash stands there already. -/
def resolve (base part : Path) : Path :=
  if part.isAbsolute then part
  else if base.chars = [] ∨ base.chars.getLast? = some '/' then ⟨base.chars ++ part.chars⟩
  else ⟨base.chars ++ '/' :: part.chars⟩

/-- The parts of a dotted package name, empty ones left out. -/
def packageParts (package : String) : List (List Char) :=
  (Text.pieces '.' package.toList).filter (· ≠ [])

/-- The directory of a package: the parts of its name put below one another. -/
def ofPackage (package : String) : Path :=
  (packageParts package).foldl (fun path part => path.resolve ⟨part⟩) ⟨[]⟩

/-- The reversed text of a path without the slashes and the single dots at its end that name no
further component. A dot that is all there is of a path stays. -/
def dropTrailing : List Char → List Char
  | '/' :: rest => dropTrailing rest
  | '.' :: '/' :: rest => dropTrailing ('/' :: rest)
  | reversed => reversed

/-- The reversed text of a path without its last component. -/
def dropName (reversed : List Char) : List Char :=
  reversed.dropWhile (· ≠ '/')

/-- The directory that a path lies in, unless the path is empty or the root. Slashes and single dots
at the end of a path, and of what is left of it, do not count. -/
def parent? (path : Path) : Option Path :=
  match dropTrailing path.chars.reverse with
  | [] => none
  | reversed =>
    match dropTrailing (dropName reversed) with
    | [] => if path.isAbsolute then some ⟨['/']⟩ else some ⟨[]⟩
    | rest => some ⟨rest.reverse⟩

theorem length_dropTrailing_le (reversed : List Char) :
    (dropTrailing reversed).length ≤ reversed.length := by
  fun_induction dropTrailing reversed <;> simp_all <;> omega

/-- What is left does not start with a slash, so its first component is a name. -/
theorem dropTrailing_ne_slash (reversed rest : List Char) :
    dropTrailing reversed ≠ '/' :: rest := by
  fun_induction dropTrailing reversed with
  | case1 _ ih => exact ih
  | case2 _ ih => exact ih
  | case3 reversed hslash _ =>
      intro heq
      exact hslash rest heq

/-- The directory that a path lies in has a shorter text. -/
theorem length_lt_of_parent? {path parent : Path} (hparent : path.parent? = some parent) :
    parent.chars.length < path.chars.length := by
  unfold parent? at hparent
  have hle := length_dropTrailing_le path.chars.reverse
  have hslash := dropTrailing_ne_slash path.chars.reverse
  split at hparent
  · simp at hparent
  · next reversed hnil =>
      rw [List.length_reverse] at hle
      cases hshort : dropTrailing path.chars.reverse with
      | nil => exact absurd hshort hnil
      | cons c rest =>
          have hname : (dropName (c :: rest)).length ≤ rest.length := by
            have hc : c ≠ '/' := fun h => hslash rest (h ▸ hshort)
            simp only [dropName, hc, ne_eq, not_false_eq_true, decide_true,
              List.dropWhile_cons_of_pos]
            exact (List.dropWhile_sublist _).length_le
          rw [hshort] at hparent hle
          simp only [List.length_cons] at hle
          split at hparent
          · split at hparent
            · next habsolute =>
                have hlong : 2 ≤ path.chars.length := by
                  obtain ⟨chars⟩ := path
                  match chars with
                  | [] => simp at hle
                  | [first] =>
                      simp only [isAbsolute, List.head?_cons, beq_iff_eq, Option.some.injEq]
                        at habsolute
                      subst habsolute
                      simp [dropTrailing] at hshort
                  | _ :: _ :: _ => simp
                injection hparent with hparent
                subst hparent
                simp only [List.length_cons, List.length_nil]
                omega
            · injection hparent with hparent
              subst hparent
              simp
              omega
          · injection hparent with hparent
            subst hparent
            have := length_dropTrailing_le (dropName (c :: rest))
            simp only [List.length_reverse]
            omega

end Path

end JavaResources
