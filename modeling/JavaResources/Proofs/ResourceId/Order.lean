import JavaResources.Proofs.Text.Digits
import Mathlib.Data.Nat.Bitwise
import Mathlib.Data.String.Basic

/-!
# The order of resource identifiers

An identifier can be looked at as a number, as its parts and as its text. `compare_parts_text` says
that all three tell the same identifiers apart and order them in the same way: the parts do not
overlap in the number, and the text has the digits of each part in places of their own.
-/

namespace JavaResources

/-- Numbers with a larger and a smaller digit are compared by the larger one first. -/
theorem Text.compare_mul_add {base first second firstRest secondRest : Nat}
    (hfirst : firstRest < base) (hsecond : secondRest < base) :
    compare (first * base + firstRest) (second * base + secondRest)
      = (compare first second).then (compare firstRest secondRest) := by
  rcases Nat.lt_trichotomy first second with hlt | rfl | hgt
  · have hle : (first + 1) * base ≤ second * base := Nat.mul_le_mul_right base hlt
    rw [Nat.succ_mul] at hle
    rw [Nat.compare_eq_lt.2 hlt, Nat.compare_eq_lt.2 (by omega)]
    rfl
  · rw [Nat.compare_eq_eq.2 rfl]
    simp [Nat.compare_eq_ite_lt]
  · have hle : (second + 1) * base ≤ first * base := Nat.mul_le_mul_right base hgt
    rw [Nat.succ_mul] at hle
    rw [Nat.compare_eq_gt.2 hgt, Nat.compare_eq_gt.2 (by omega)]
    rfl

namespace ResourceId

/-! ## Parts -/

theorem toNat_package (id : ResourceId) : id.package.toNat = id.word.toNat / 2 ^ 24 := by
  have hword := id.word.toNat_lt
  have hshifted : id.package.toNat = id.word.toNat / 2 ^ 24 % 2 ^ 8 := by
    rw [package, UInt32.toNat_toUInt8, UInt32.toNat_shiftRight, Nat.shiftRight_eq_div_pow]
    rfl
  omega

theorem toNat_type (id : ResourceId) : id.type.toNat = id.word.toNat / 2 ^ 16 % 2 ^ 8 := by
  rw [type, UInt32.toNat_toUInt8, UInt32.toNat_shiftRight, Nat.shiftRight_eq_div_pow]
  rfl

theorem toNat_entry (id : ResourceId) : id.entry.toNat = id.word.toNat % 2 ^ 16 := by
  rw [entry, UInt32.toNat_toUInt16]

/-- The number of an identifier is made of its parts. -/
theorem toNat_word (id : ResourceId) :
    id.word.toNat = (id.package.toNat * 2 ^ 8 + id.type.toNat) * 2 ^ 16 + id.entry.toNat := by
  rw [toNat_package, toNat_type, toNat_entry]
  omega

/-- A shifted number and one below the shift do not overlap. -/
theorem shiftLeft_mod_or {width high low : Nat} (hhigh : high * 2 ^ width < 2 ^ 32)
    (hlow : low < 2 ^ width) : high <<< width % 2 ^ 32 ||| low = high * 2 ^ width + low := by
  rw [Nat.shiftLeft_eq, Nat.mod_eq_of_lt hhigh, ← Nat.shiftLeft_eq,
    ← Nat.shiftLeft_add_eq_or_of_lt hlow]

/-- The number of a packed identifier is made of the parts that were packed. -/
theorem toNat_word_pack (package type : UInt8) (entry : UInt16) :
    (pack package type entry).word.toNat
      = (package.toNat * 2 ^ 8 + type.toNat) * 2 ^ 16 + entry.toNat := by
  have hpackage := package.toNat_lt
  have htype := type.toNat_lt
  have hentry := entry.toNat_lt
  have hword : (pack package type entry).word.toNat = package.toNat <<< 24 % 2 ^ 32
      ||| (type.toNat <<< 16 % 2 ^ 32 ||| entry.toNat) := by
    simp only [pack, UInt32.toNat_or, UInt32.toNat_shiftLeft, UInt8.toNat_toUInt32,
      UInt16.toNat_toUInt32, Nat.or_assoc]
    rfl
  rw [hword, shiftLeft_mod_or (by omega) hentry, shiftLeft_mod_or (by omega) (by omega)]
  omega

/-- Identifiers with the same number are the same. -/
theorem eq_of_toNat_word {first second : ResourceId}
    (h : first.word.toNat = second.word.toNat) : first = second := by
  obtain ⟨word⟩ := first
  exact congrArg ResourceId.mk (UInt32.toNat_inj.1 h)

/-- An identifier is packed from its own parts. -/
theorem pack_parts (id : ResourceId) : pack id.package id.type id.entry = id :=
  eq_of_toNat_word ((toNat_word_pack _ _ _).trans id.toNat_word.symm)

/-- Packed parts are given back. -/
theorem parts_pack (package type : UInt8) (entry : UInt16) :
    (pack package type entry).package = package ∧ (pack package type entry).type = type ∧
      (pack package type entry).entry = entry := by
  have hpackage := package.toNat_lt
  have htype := type.toNat_lt
  have hentry := entry.toNat_lt
  refine ⟨UInt8.toNat_inj.1 ?_, UInt8.toNat_inj.1 ?_, UInt16.toNat_inj.1 ?_⟩
  · rw [toNat_package, toNat_word_pack]
    omega
  · rw [toNat_type, toNat_word_pack]
    omega
  · rw [toNat_entry, toNat_word_pack]
    omega

/-! ## Texts -/

/-- Of the eight digits of an identifier two are those of the package, two those of the type and
four those of the entry. -/
theorem hex_word (id : ResourceId) :
    Text.hex 8 id.word.toNat = Text.hex 2 id.package.toNat ++ Text.hex 2 id.type.toNat
      ++ Text.hex 4 id.entry.toNat := by
  have hpackage : id.word.toNat / 16 ^ 4 / 16 ^ 2 = id.package.toNat := by
    rw [toNat_package]
    omega
  have htype : Text.hex 2 (id.word.toNat / 16 ^ 4) = Text.hex 2 id.type.toNat := by
    rw [toNat_type]
    exact (Text.hex_mod 2 (id.word.toNat / 16 ^ 4)).symm
  have hentry : Text.hex 4 id.word.toNat = Text.hex 4 id.entry.toNat := by
    rw [toNat_entry]
    exact (Text.hex_mod 4 id.word.toNat).symm
  calc Text.hex (2 + 2 + 4) id.word.toNat
      = Text.hex 2 (id.word.toNat / 16 ^ 4 / 16 ^ 2) ++ Text.hex 2 (id.word.toNat / 16 ^ 4)
          ++ Text.hex 4 id.word.toNat := by rw [Text.hex_add, Text.hex_add]
    _ = Text.hex 2 id.package.toNat ++ Text.hex 2 id.type.toNat
          ++ Text.hex 4 id.entry.toNat := by rw [hpackage, htype, hentry]

/-- The parts of an identifier are read from their digits. -/
theorem hexNumber?_parts (id : ResourceId) :
    Toml.hexNumber? ((Text.hex 8 id.word.toNat).take 2) = some id.package.toNat ∧
      Toml.hexNumber? (((Text.hex 8 id.word.toNat).drop 2).take 2) = some id.type.toNat ∧
      Toml.hexNumber? ((Text.hex 8 id.word.toNat).drop 4) = some id.entry.toNat := by
  have hlength (width value : Nat) := Text.length_hex width value
  rw [hex_word]
  refine ⟨?_, ?_, ?_⟩
  · rw [List.append_assoc, List.take_left' (hlength 2 _)]
    exact Text.hexNumber?_hex id.package.toNat_lt
  · rw [List.append_assoc, List.drop_left' (hlength 2 _), List.take_left' (hlength 2 _)]
    exact Text.hexNumber?_hex id.type.toNat_lt
  · rw [List.drop_left' (by simp)]
    exact Text.hexNumber?_hex id.entry.toNat_lt

/-! ## Orders -/

theorem compare_eq_compare_toNat (first second : ResourceId) :
    compare first second = compare first.word.toNat second.word.toNat :=
  UInt32.compare_eq_toNat_compare_toNat first.word second.word

/-- Identifiers are compared by their parts, the package first. -/
theorem compare_eq_compare_parts (first second : ResourceId) :
    compare first second
      = ((compare first.package second.package).then (compare first.type second.type)).then
          (compare first.entry second.entry) := by
  rw [compare_eq_compare_toNat, UInt8.compare_eq_toNat_compare_toNat,
    UInt8.compare_eq_toNat_compare_toNat, UInt16.compare_eq_toNat_compare_toNat,
    first.toNat_word, second.toNat_word,
    Text.compare_mul_add first.entry.toNat_lt second.entry.toNat_lt,
    Text.compare_mul_add first.type.toNat_lt second.type.toNat_lt]

/-- The texts of larger numbers come later. -/
theorem strictMonoOn_text :
    StrictMonoOn (fun value => String.ofList ('0' :: 'x' :: Text.hex 8 value))
      {value | value < 16 ^ 8} := by
  intro first _ second hsecond h
  have hdigits := Text.hex_lt_hex hsecond h
  rw [String.lt_iff_toList_lt, String.toList_ofList, String.toList_ofList]
  exact List.cons_lt_cons_iff.2 (.inr ⟨rfl, List.cons_lt_cons_iff.2 (.inr ⟨rfl, hdigits⟩)⟩)

/-- Identifiers are compared like their texts. -/
theorem compare_eq_compare_text (first second : ResourceId) :
    compare first second = compare first.text second.text := by
  have htext := strictMonoOn_text.cmp_map_eq first.word.toNat_lt second.word.toNat_lt
  rw [compare_eq_compare_toNat, ← cmp_eq_compare, ← htext, cmp_eq_compare]
  rfl

/-- Packing the parts of an identifier gives the identifier, and unpacking gives the parts back. Its
text is `0x` and eight digits in lower case, which stand for its number, the first two for its
package, the next two for its type and the last four for its entry. Numbers, triples of parts and
texts put any two identifiers into the same order, so no two have the same text. -/
theorem compare_parts_text :
    (∀ id : ResourceId, pack id.package id.type id.entry = id) ∧
    (∀ (package type : UInt8) (entry : UInt16),
      (pack package type entry).package = package ∧ (pack package type entry).type = type ∧
        (pack package type entry).entry = entry) ∧
    (∀ id : ResourceId, ∃ digits : List Char,
      id.text.toList = '0' :: 'x' :: digits ∧ digits.length = 8 ∧
        (∀ digit ∈ digits, digit ∈ "0123456789abcdef".toList) ∧
        Toml.hexNumber? digits = some id.word.toNat ∧
        Toml.hexNumber? (digits.take 2) = some id.package.toNat ∧
        Toml.hexNumber? ((digits.drop 2).take 2) = some id.type.toNat ∧
        Toml.hexNumber? (digits.drop 4) = some id.entry.toNat) ∧
    ∀ first second : ResourceId,
      compare first second = compare first.word.toNat second.word.toNat ∧
      compare first second
        = ((compare first.package second.package).then (compare first.type second.type)).then
            (compare first.entry second.entry) ∧
      compare first second = compare first.text second.text ∧
      (first.text = second.text ↔ first = second) := by
  refine ⟨pack_parts, parts_pack, fun id => ?_, fun first second => ?_⟩
  · exact ⟨Text.hex 8 id.word.toNat, id.toList_text, Text.length_hex _ _,
      fun digit => Text.mem_hex, Text.hexNumber?_hex id.word.toNat_lt, id.hexNumber?_parts⟩
  · exact ⟨compare_eq_compare_toNat first second, compare_eq_compare_parts first second,
      compare_eq_compare_text first second, fun h => text_inj (congrArg String.toList h),
      congrArg text⟩

end ResourceId

end JavaResources
