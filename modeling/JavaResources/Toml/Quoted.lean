import JavaResources.Toml.Reading

/-!
# Quoted text

TOML has four forms of quoted text: on one line or over several, between double quotes with escapes
or between single quotes without. `quoted` reads what follows the opening quotes, up to and
including the closing ones, and gives the text that it stands for.
-/

namespace JavaResources.Toml

/-- The blanks within a line: space and tab. -/
def isBlank (c : Char) : Bool :=
  c == ' ' || c == '\t'

/-- The characters that may stand in quoted text and in comments: all but the control characters, of
which only the tab is allowed. -/
def isTextChar (c : Char) : Bool :=
  c == '\t' || (0x20 ≤ c.toNat && c.toNat != 0x7F)

/-- The value of a hexadecimal digit. -/
def hexDigit? (c : Char) : Option Nat :=
  if '0' ≤ c ∧ c ≤ '9' then some (c.toNat - '0'.toNat)
  else if 'a' ≤ c ∧ c ≤ 'f' then some (c.toNat - 'a'.toNat + 10)
  else if 'A' ≤ c ∧ c ≤ 'F' then some (c.toNat - 'A'.toNat + 10)
  else none

/-- The number that hexadecimal digits stand for. -/
def hexNumber? (digits : List Char) : Option Nat :=
  digits.foldlM (fun value c => (hexDigit? c).map (value * 16 + ·)) 0

/-- The character with the code point that the next `count` digits give. -/
def coded (count : Nat) (input : List Char) : Reading Char Char input :=
  if hcount : 0 < count ∧ count ≤ input.length then
    match hexNumber? (input.take count) with
    | none => none
    | some code =>
      if code.isValidChar then
        .found (Char.ofNat code) (input.drop count) (by
          rw [List.length_drop]
          exact Nat.sub_lt (Nat.lt_of_lt_of_le hcount.1 hcount.2) hcount.1)
      else none
  else none

/-- The character that an escape stands for, read behind its backslash. -/
def escaped : (input : List Char) → Reading Char Char input
  | [] => none
  | c :: rest =>
    match c with
    | 'b' => .found '\x08' rest (by simp)
    | 't' => .found '\t' rest (by simp)
    | 'n' => .found '\n' rest (by simp)
    | 'f' => .found '\x0c' rest (by simp)
    | 'r' => .found '\r' rest (by simp)
    | 'e' => .found '\x1b' rest (by simp)
    | '"' => .found '"' rest (by simp)
    | '\\' => .found '\\' rest (by simp)
    | 'x' => (coded 2 rest).behind (by simp)
    | 'u' => (coded 4 rest).behind (by simp)
    | 'U' => (coded 8 rest).behind (by simp)
    | _ => none

/-- How a text is quoted: by which character, and whether a backslash starts an escape in it. -/
structure Quoting where
  quote : Char
  escapes : Bool

/-- Between double quotes a backslash starts an escape. -/
def Quoting.basic : Quoting := ⟨'"', true⟩

/-- Between single quotes every character stands for itself. -/
def Quoting.literal : Quoting := ⟨'\'', false⟩

/-- The text up to the closing quote on the same line. -/
def lineText (quoting : Quoting) : (input : List Char) → Reading Char (List Char) input
  | [] => none
  | c :: rest =>
    if c = quoting.quote then .found [] rest (by simp)
    else if c = '\\' ∧ quoting.escapes then
      match escaped rest with
      | none => none
      | some (character, ⟨tail, htail⟩) =>
        ((lineText quoting tail).mapValue (character :: ·)).behind (by grind)
    else if isTextChar c then ((lineText quoting rest).mapValue (c :: ·)).behind (by simp)
    else none
termination_by input => input.length
decreasing_by all_goals simp only [List.length_cons]; omega

/-- The closing quotes of text over several lines. Up to two quotes directly before them belong to
the text. -/
def closing (quote : Char) : (input : List Char) → Reading Char (List Char) input
  | a :: b :: c :: rest =>
    if a = quote ∧ b = quote ∧ c = quote then
      match rest with
      | [] => .found [] [] (Nat.zero_lt_succ _)
      | d :: tail =>
        if d = quote then
          match tail with
          | [] => .found [quote] [] (Nat.zero_lt_succ _)
          | e :: tail =>
            if e = quote then .found [quote, quote] tail (Nat.lt_add_of_pos_right (Nat.succ_pos 4))
            else
              .found [quote] (e :: tail)
                (Nat.add_lt_add_left (Nat.succ_lt_succ (Nat.succ_pos 3)) _)
        else .found [] (d :: tail) (Nat.add_lt_add_left (Nat.succ_lt_succ (Nat.succ_pos 2)) _)
    else none
  | _ => none

/-- What is left behind blanks and line ends. -/
def skipSpace : List Char → List Char
  | '\r' :: '\n' :: rest => skipSpace rest
  | '\n' :: rest => skipSpace rest
  | ' ' :: rest => skipSpace rest
  | '\t' :: rest => skipSpace rest
  | rest => rest

theorem length_skipSpace_le (input : List Char) : (skipSpace input).length ≤ input.length := by
  fun_induction skipSpace input <;> simp_all <;> omega

/-- A line end at the front of the input, and what is left behind it. -/
def lineEnd : (input : List Char) → Reading Char (List Char) input
  | '\n' :: rest => .found ['\n'] rest (by simp)
  | '\r' :: '\n' :: rest => .found ['\r', '\n'] rest (by grind)
  | _ => none

/-- Behind a backslash at the end of a line: what is left after all blanks and line ends. -/
def continuation? (input : List Char) : Option (Remainder input) :=
  if (lineEnd (input.dropWhile isBlank)).isSome then
    some ⟨skipSpace input, length_skipSpace_le input⟩
  else none

/-- The text up to the closing quotes, over several lines. A line end stands for itself. -/
def manyLineText (quoting : Quoting) (input : List Char) : Reading Char (List Char) input :=
  match closing quoting.quote input with
  | some ended => some ended
  | none =>
    match input with
    | [] => none
    | c :: rest =>
      if c = '\\' ∧ quoting.escapes then
        match continuation? rest with
        | some ⟨tail, htail⟩ => (manyLineText quoting tail).behind (by grind)
        | none =>
          match escaped rest with
          | none => none
          | some (character, ⟨tail, htail⟩) =>
            ((manyLineText quoting tail).mapValue (character :: ·)).behind (by grind)
      else
        match lineEnd (c :: rest) with
        | some (characters, ⟨tail, htail⟩) =>
          ((manyLineText quoting tail).mapValue (characters ++ ·)).behind
            (by grind)
        | none =>
          if isTextChar c then ((manyLineText quoting rest).mapValue (c :: ·)).behind (by simp)
          else none
termination_by input.length
decreasing_by all_goals simp only [List.length_cons] at *; omega

/-- Text between quotes: what it stands for, and whether it may stand on several lines. -/
structure Quoted where
  text : List Char
  manyLines : Bool

/-- What is left without a line end at the front. A line end behind the opening quotes of text over
several lines is no part of the text. -/
def dropLineEnd (input : List Char) : Remainder input :=
  match lineEnd input with
  | some (_, ⟨rest, hrest⟩) => ⟨rest, Nat.le_of_lt hrest⟩
  | none => ⟨input, Nat.le_refl _⟩

/-- Quoted text whose first quote has been read. Two more quotes open text over several lines. -/
def quoted (quoting : Quoting) (input : List Char) : Reading Char Quoted input :=
  match input with
  | first :: second :: rest =>
    if first = quoting.quote ∧ second = quoting.quote then
      match dropLineEnd rest with
      | ⟨body, hbody⟩ =>
        ((manyLineText quoting body).mapValue (⟨·, true⟩)).behind (by grind)
    else (lineText quoting (first :: second :: rest)).mapValue (⟨·, false⟩)
  | input => (lineText quoting input).mapValue (⟨·, false⟩)

end JavaResources.Toml
