import JavaResources.Path
import Mathlib.Data.List.Basic
import Mathlib.Data.List.Induction

/-!
# Paths put below one another

A path that is put below another either replaces it or stands behind its text as a directory, and
`resolve_assoc` says that it does not matter in which order three paths are put together. `ofParts`
puts any number of parts below one another: the result is absolute exactly if one of the parts is,
and nothing in front of the last such part is left. Parts without slashes are joined by slashes.
-/

namespace JavaResources.Path

/-! ## Two paths and three -/

/-- The text of a directory in front of what is put below it: with a slash at its end, unless it is
empty or has one there already. -/
def asDirectory (text : List Char) : List Char :=
  if text = [] ∨ text.getLast? = some '/' then text else text ++ ['/']

theorem prefix_asDirectory (text : List Char) : text <+: asDirectory text := by
  unfold asDirectory
  split
  · exact List.prefix_rfl
  · exact List.prefix_append _ _

/-- A text that ends with another character gets a slash. -/
theorem asDirectory_of_getLast? {text : List Char} (hne : text ≠ [])
    (h : text.getLast? ≠ some '/') : asDirectory text = text ++ ['/'] := by
  rw [asDirectory, if_neg (not_or.2 ⟨hne, h⟩)]

/-- Behind a directory, a text becomes a directory as it does alone. -/
theorem asDirectory_append (base text : List Char) :
    asDirectory (asDirectory base ++ text) = asDirectory base ++ asDirectory text := by
  have hbase : asDirectory base = [] ∨ (asDirectory base).getLast? = some '/' := by
    unfold asDirectory
    split
    · next h => exact h
    · exact .inr List.getLast?_concat
  generalize asDirectory base = front at hbase
  cases text with
  | nil =>
      rw [List.append_nil, asDirectory, if_pos hbase]
      exact (List.append_nil front).symm
  | cons c rest =>
      have hlast : (front ++ c :: rest).getLast? = (c :: rest).getLast? :=
        List.getLast?_append_cons front c rest
      by_cases hslash : (c :: rest).getLast? = some '/'
      · rw [asDirectory, hlast, if_pos (.inr hslash), asDirectory, if_pos (.inr hslash)]
      · rw [asDirectory_of_getLast? (by simp) (hlast ▸ hslash),
          asDirectory_of_getLast? (List.cons_ne_nil c rest) hslash, List.append_assoc]

/-- A path is absolute if it begins with a slash. -/
theorem isAbsolute_iff {path : Path} : path.isAbsolute = true ↔ path.chars.head? = some '/' := by
  rw [isAbsolute, beq_iff_eq]

/-- An absolute path replaces what it is put below. -/
theorem resolve_of_isAbsolute {part : Path} (h : part.isAbsolute = true) (base : Path) :
    base.resolve part = part := by
  rw [resolve, if_pos h]

/-- A relative path stands behind the directory that it is put below. -/
theorem resolve_of_relative {part : Path} (h : part.isAbsolute = false) (base : Path) :
    base.resolve part = ⟨asDirectory base.chars ++ part.chars⟩ := by
  rw [resolve, if_neg (by simp [h]), asDirectory]
  split
  · rfl
  · rw [List.append_assoc]
    rfl

/-- A path below another is absolute if one of the two is. -/
theorem isAbsolute_resolve (base part : Path) :
    (base.resolve part).isAbsolute = (base.isAbsolute || part.isAbsolute) := by
  cases hpart : part.isAbsolute with
  | true => rw [resolve_of_isAbsolute hpart, hpart, Bool.or_true]
  | false =>
      rw [resolve_of_relative hpart, Bool.or_false]
      obtain ⟨chars⟩ := base
      cases chars with
      | nil => exact hpart
      | cons c rest =>
          obtain ⟨more, hmore⟩ := prefix_asDirectory (c :: rest)
          rw [← hmore]
          rfl

/-- Paths may be put below one another from either end. -/
theorem resolve_assoc (base middle part : Path) :
    (base.resolve middle).resolve part = base.resolve (middle.resolve part) := by
  cases hpart : part.isAbsolute with
  | true => simp only [resolve_of_isAbsolute hpart]
  | false =>
      cases hmiddle : middle.isAbsolute with
      | true =>
          have habsolute : (middle.resolve part).isAbsolute = true := by
            rw [isAbsolute_resolve, hmiddle, Bool.true_or]
          rw [resolve_of_isAbsolute hmiddle, resolve_of_isAbsolute habsolute]
      | false =>
          have hrelative : (middle.resolve part).isAbsolute = false := by
            rw [isAbsolute_resolve, hmiddle, hpart, Bool.or_false]
          rw [resolve_of_relative hpart, resolve_of_relative hmiddle, asDirectory_append,
            resolve_of_relative hrelative, resolve_of_relative hpart, List.append_assoc]

/-! ## Any number of parts -/

/-- Parts put below one another, the first below nothing. -/
def ofParts (parts : List (List Char)) : Path :=
  parts.foldl (fun path part => path.resolve ⟨part⟩) ⟨[]⟩

/-- What is put below parts is one part more. -/
theorem ofParts_concat (parts : List (List Char)) (last : List Char) :
    ofParts (parts ++ [last]) = (ofParts parts).resolve ⟨last⟩ :=
  List.foldl_concat _ _ _ _

/-- Parts put below one another are absolute if one of them is. -/
theorem isAbsolute_ofParts (parts : List (List Char)) :
    (ofParts parts).isAbsolute = true ↔ ∃ part ∈ parts, part.head? = some '/' := by
  induction parts using List.reverseRecOn with
  | nil => simp [ofParts, isAbsolute]
  | append_singleton parts last ih =>
      rw [ofParts_concat, isAbsolute_resolve, Bool.or_eq_true, ih, isAbsolute_iff]
      simp [or_and_right, exists_or]

/-- An absolute part replaces the parts in front of it. -/
theorem ofParts_append_cons (dropped others : List (List Char)) {first : List Char}
    (h : first.head? = some '/') :
    ofParts (dropped ++ first :: others) = ofParts (first :: others) := by
  have habsolute : isAbsolute ⟨first⟩ = true := isAbsolute_iff.2 h
  rw [ofParts, List.foldl_append, List.foldl_cons, resolve_of_isAbsolute habsolute, ofParts,
    List.foldl_cons, resolve_of_isAbsolute habsolute]

/-- Among parts with an absolute one there is a last such part. -/
theorem exists_last_absolute {parts : List (List Char)}
    (h : ∃ part ∈ parts, part.head? = some '/') :
    ∃ dropped first others, parts = dropped ++ first :: others ∧ first.head? = some '/' ∧
      ∀ part ∈ others, part.head? ≠ some '/' := by
  induction parts with
  | nil =>
      obtain ⟨part, hpart, -⟩ := h
      exact absurd hpart List.not_mem_nil
  | cons part others ih =>
      by_cases hothers : ∃ other ∈ others, other.head? = some '/'
      · obtain ⟨dropped, first, rest, rfl, hfirst, hrest⟩ := ih hothers
        exact ⟨part :: dropped, first, rest, rfl, hfirst, hrest⟩
      · have hnone : ∀ other ∈ others, other.head? ≠ some '/' := fun other hother hhead =>
          hothers ⟨other, hother, hhead⟩
        obtain ⟨first, hfirst, hhead⟩ := h
        rcases List.mem_cons.1 hfirst with rfl | hmem
        · exact ⟨[], first, others, rfl, hhead, hnone⟩
        · exact absurd hhead (hnone first hmem)

/-- Parts without slashes are joined by slashes behind what they are put below. -/
theorem foldl_resolve {parts : List (List Char)} (hne : parts ≠ [])
    (h : ∀ part ∈ parts, part ≠ [] ∧ '/' ∉ part) (base : Path) :
    parts.foldl (fun path part => path.resolve ⟨part⟩) base
      = ⟨asDirectory base.chars ++ Text.joined '/' parts⟩ := by
  induction parts generalizing base with
  | nil => contradiction
  | cons part others ih =>
      obtain ⟨hpart, hslash⟩ := h part List.mem_cons_self
      have hrelative : isAbsolute ⟨part⟩ = false := by
        rw [← Bool.not_eq_true, isAbsolute_iff]
        exact fun hhead => hslash (List.mem_of_mem_head? hhead)
      rw [List.foldl_cons, resolve_of_relative hrelative]
      cases others with
      | nil => rfl
      | cons next others =>
          have hlast : part.getLast? ≠ some '/' := fun hlast => hslash (List.mem_of_getLast? hlast)
          rw [ih (List.cons_ne_nil next others) fun other hother =>
              h other (List.mem_cons_of_mem part hother),
            asDirectory_append, asDirectory_of_getLast? hpart hlast]
          simp [Text.joined]

/-- Parts without slashes are joined by slashes. -/
theorem ofParts_eq_joined {parts : List (List Char)} (h : ∀ part ∈ parts, part ≠ [] ∧ '/' ∉ part) :
    ofParts parts = ⟨Text.joined '/' parts⟩ := by
  by_cases hne : parts = []
  · subst hne
    rfl
  · exact foldl_resolve hne h ⟨[]⟩

/-! ## Parts of packages -/

/-- The directory of a package is made of its parts. -/
theorem ofPackage_eq (package : String) : ofPackage package = ofParts (packageParts package) :=
  rfl

/-- No part of a package is empty. -/
theorem ne_nil_of_mem_packageParts {package : String} :
    ∀ part ∈ packageParts package, part ≠ [] :=
  fun _ hpart => of_decide_eq_true (List.mem_filter.1 hpart).2

end JavaResources.Path
