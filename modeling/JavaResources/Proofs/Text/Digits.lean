import JavaResources.ResourceId
import JavaResources.Text.Decimal
import JavaResources.Toml.Quoted
import Mathlib.Algebra.Group.Nat.Defs

/-!
# Numbers as text

Different numbers have different texts, in hexadecimal digits of a fixed width (`hex_inj`) and in
decimal (`decimal_inj`), and no other characters than digits and signs occur in them. Hexadecimal
digits are read as the number that they were written for (`hexNumber?_hex`), and their texts are
ordered like the numbers (`hex_lt_hex`).
-/

namespace JavaResources.Text

/-! ## Hexadecimal -/

/-- Hexadecimal text has digits in lower case. -/
theorem mem_hex {width value : Nat} {c : Char} (hc : c ∈ hex width value) :
    c ∈ "0123456789abcdef".toList := by
  have hdigit : ∀ digit < 16, hexDigit digit ∈ "0123456789abcdef".toList := by decide
  induction width generalizing value with
  | zero => exact absurd hc List.not_mem_nil
  | succ width ih =>
      rw [hex, List.mem_append, List.mem_singleton] at hc
      rcases hc with hc | rfl
      · exact ih hc
      · exact hdigit _ (Nat.mod_lt value (by decide))

/-- Different digits are different characters. -/
theorem hexDigit_inj {first second : Nat} (hfirst : first < 16) (hsecond : second < 16)
    (h : hexDigit first = hexDigit second) : first = second := by
  have hdigits : ∀ first < 16, ∀ second < 16,
      hexDigit first = hexDigit second → first = second := by
    decide
  exact hdigits first hfirst second hsecond h

/-- Numbers that fit into the width are told apart by their texts. -/
theorem hex_inj {width first second : Nat} (hfirst : first < 16 ^ width)
    (hsecond : second < 16 ^ width) (h : hex width first = hex width second) : first = second := by
  induction width generalizing first second with
  | zero =>
      rw [Nat.pow_zero] at hfirst hsecond
      omega
  | succ width ih =>
      rw [hex, hex] at h
      obtain ⟨hinit, hlast⟩ := List.append_inj' h rfl
      rw [List.cons.injEq] at hlast
      have hdigit := hexDigit_inj (Nat.mod_lt first (by decide)) (Nat.mod_lt second (by decide))
        hlast.1
      have hquotient : first / 16 = second / 16 := by
        refine ih ?_ ?_ hinit
        · exact Nat.div_lt_of_lt_mul (by rwa [Nat.pow_succ, Nat.mul_comm] at hfirst)
        · exact Nat.div_lt_of_lt_mul (by rwa [Nat.pow_succ, Nat.mul_comm] at hsecond)
      omega

/-- The digits of a number that fits into the width are read as the number. -/
theorem hexNumber?_hex {width value : Nat} (h : value < 16 ^ width) :
    Toml.hexNumber? (hex width value) = some value := by
  have hdigit : ∀ digit < 16, Toml.hexDigit? (hexDigit digit) = some digit := by decide
  induction width generalizing value with
  | zero =>
      obtain rfl : value = 0 := by simpa using h
      rfl
  | succ width ih =>
      have hquotient : value / 16 < 16 ^ width :=
        Nat.div_lt_of_lt_mul (by rwa [Nat.pow_succ, Nat.mul_comm] at h)
      have hread := ih hquotient
      rw [Toml.hexNumber?] at hread ⊢
      rw [hex, List.foldlM_append, hread]
      simp [hdigit (value % 16) (Nat.mod_lt value (by decide)), Nat.div_add_mod']

/-- The digits of a number are the digits in front and then the last ones. -/
theorem hex_add (front last value : Nat) :
    hex (front + last) value = hex front (value / 16 ^ last) ++ hex last value := by
  induction last generalizing value with
  | zero => simp [hex]
  | succ last ih =>
      have hquotient : value / 16 / 16 ^ last = value / 16 ^ (last + 1) := by
        rw [Nat.div_div_eq_div_mul, Nat.pow_succ, Nat.mul_comm]
      rw [← Nat.add_assoc, hex, hex, ih, hquotient, List.append_assoc]

/-- What does not fit into the width has no digits. -/
theorem hex_mod (width value : Nat) : hex width (value % 16 ^ width) = hex width value := by
  induction width generalizing value with
  | zero => rfl
  | succ width ih =>
      have hquotient : value % 16 ^ (width + 1) / 16 = value / 16 % 16 ^ width := by
        rw [Nat.pow_succ, Nat.mul_comm, Nat.mod_mul_right_div_self]
      have hlast : value % 16 ^ (width + 1) % 16 = value % 16 :=
        Nat.mod_mod_of_dvd value ⟨16 ^ width, by rw [Nat.pow_succ, Nat.mul_comm]⟩
      rw [hex, hex, hquotient, hlast, ih]

/-- Of two numbers that fit into the width, the larger one has the later text. -/
theorem hex_lt_hex {width first second : Nat} (hsecond : second < 16 ^ width)
    (h : first < second) : hex width first < hex width second := by
  have hdigit : ∀ second < 16, ∀ first < second, hexDigit first < hexDigit second := by decide
  induction width generalizing first second with
  | zero =>
      rw [Nat.pow_zero] at hsecond
      omega
  | succ width ih =>
      have hpos : 0 < 16 ^ width := Nat.pow_pos (by decide)
      have hquotient : second / 16 ^ width < 16 :=
        Nat.div_lt_of_lt_mul (by rwa [Nat.pow_succ] at hsecond)
      have hle : first / 16 ^ width ≤ second / 16 ^ width := Nat.div_le_div_right (Nat.le_of_lt h)
      have htext {value : Nat} (hvalue : value / 16 ^ width < 16) : hex (width + 1) value
          = hexDigit (value / 16 ^ width) :: hex width (value % 16 ^ width) := by
        rw [Nat.add_comm, hex_add, hex_mod, hex, hex, Nat.mod_eq_of_lt hvalue]
        rfl
      rw [htext (Nat.lt_of_le_of_lt hle hquotient), htext hquotient, List.cons_lt_cons_iff]
      -- Either the first digits decide, or they are the same and the others do.
      rcases Nat.lt_or_eq_of_le hle with hlt | heq
      · exact .inl (hdigit _ hquotient _ hlt)
      · refine .inr ⟨congrArg hexDigit heq, ih (Nat.mod_lt second hpos) ?_⟩
        have hfirst := Nat.div_add_mod first (16 ^ width)
        have hrest := Nat.div_add_mod second (16 ^ width)
        rw [heq] at hfirst
        omega

/-! ## Decimal -/

/-- Decimal text has digits and possibly a minus sign. -/
theorem mem_decimal {value : Int} {c : Char} (hc : c ∈ decimal value) :
    c = '-' ∨ c.isDigit = true := by
  have hdigits {n : Nat} (hc : c ∈ Nat.toDigits 10 n) : c.isDigit = true :=
    Nat.isDigit_of_mem_toDigits (by decide) (by decide) hc
  unfold decimal at hc
  split at hc
  · rw [List.mem_cons] at hc
    exact hc.imp_right hdigits
  · exact .inr (hdigits hc)

/-- Natural numbers are told apart by their digits. -/
theorem toDigits_inj {first second : Nat} (h : Nat.toDigits 10 first = Nat.toDigits 10 second) :
    first = second := by
  have hvalue := congrArg (fun digits => Nat.ofDigitChars 10 digits 0) h
  simpa only [Nat.ofDigitChars_ten_toDigits] using hvalue

/-- Digits do not begin with a minus sign. -/
theorem toDigits_ne_minus (value : Nat) (rest : List Char) :
    Nat.toDigits 10 value ≠ '-' :: rest := by
  intro h
  have hminus : '-' ∈ Nat.toDigits 10 value := by
    rw [h]
    exact List.mem_cons_self
  exact absurd (Nat.isDigit_of_mem_toDigits (by decide) (by decide) hminus) (by decide)

/-- Integers are told apart by their texts. -/
theorem decimal_inj {first second : Int} (h : decimal first = decimal second) :
    first = second := by
  unfold decimal at h
  split at h <;> split at h
  · have habs := toDigits_inj (List.cons.inj h).2
    omega
  · exact absurd h.symm (toDigits_ne_minus _ _)
  · exact absurd h (toDigits_ne_minus _ _)
  · have habs := toDigits_inj h
    omega

end JavaResources.Text

namespace JavaResources.ResourceId

/-- The text of an identifier begins with the sign of hexadecimal numbers. -/
theorem toList_text (id : ResourceId) :
    id.text.toList = '0' :: 'x' :: Text.hex 8 id.word.toNat := by
  rw [text, String.toList_ofList]

/-- All identifiers have texts of the same length. -/
theorem length_toList_text (id : ResourceId) : id.text.toList.length = 10 := by
  rw [toList_text, List.length_cons, List.length_cons, Text.length_hex]

/-- The characters of identifiers. -/
theorem mem_text {id : ResourceId} {c : Char} (hc : c ∈ id.text.toList) :
    c ∈ "0123456789abcdefx".toList := by
  have hhex : "0123456789abcdef".toList ⊆ "0123456789abcdefx".toList := by decide
  rw [toList_text, List.mem_cons, List.mem_cons] at hc
  rcases hc with rfl | rfl | hc
  · decide
  · decide
  · exact hhex (Text.mem_hex hc)

/-- Identifiers are told apart by their texts. -/
theorem text_inj {first second : ResourceId} (h : first.text.toList = second.text.toList) :
    first = second := by
  rw [toList_text, toList_text, List.cons.injEq, List.cons.injEq] at h
  have hword : first.word.toNat = second.word.toNat :=
    Text.hex_inj (UInt32.toNat_lt first.word) (UInt32.toNat_lt second.word) h.2.2
  obtain ⟨word⟩ := first
  exact congrArg ResourceId.mk (UInt32.toNat_inj.1 hword)

/-- The identifier that a text stands for: a number in hexadecimal that fits into 32 bits. -/
def ofText? : List Char → Option ResourceId
  | '0' :: 'x' :: digits =>
    (Toml.hexNumber? digits).bind fun value =>
      if value < UInt32.size then some ⟨UInt32.ofNat value⟩ else none
  | _ => none

/-- The text of an identifier stands for it. -/
theorem ofText?_text (id : ResourceId) : ofText? id.text.toList = some id := by
  have hword : id.word.toNat < 16 ^ 8 := id.word.toNat_lt
  rw [toList_text, ofText?, Text.hexNumber?_hex hword, Option.bind_some,
    if_pos id.word.toNat_lt_size, UInt32.ofNat_toNat]

end JavaResources.ResourceId
