import JavaResources.Proofs.Pen.Ink
import JavaResources.Pen.Command

/-!
# What each byte is written for

The bytes on a sink do not tell whether a blank belongs to an indentation or to a text. A record
does: beside the operations of a pen it keeps a note of each byte that the sink has taken, and one
when the indentation of a line is complete, with its level. `perform_recorded` says that the record
of a command accounts for the bytes on the sink, and that every line of it has text only behind the
whole indentation of that level, wherever and however often the sink refuses.
-/

namespace JavaResources

/-- The bytes of a text that does not end a line do not either. -/
theorem Text.lineFeed_not_mem_encode {text : List Char} (h : '\n' ∉ text) : 10 ∉ encode text := by
  intro hmem
  obtain ⟨c, hc, hmem⟩ := List.mem_flatMap.1 hmem
  have hne : c.val.toNat ≠ 10 := by
    intro hval
    have hc' : c = '\n' := Char.ext (UInt32.toNat_inj.1 hval)
    exact h (hc' ▸ hc)
  -- The bytes of a longer encoding are 128 or more.
  have hbyte (n : Nat) : (10 : UInt8) = UInt8.ofNat n ↔ 10 = n % 256 := by
    rw [← UInt8.toNat_inj, UInt8.toNat_ofNat]
    rfl
  simp only [String.utf8EncodeChar] at hmem
  generalize c.val.toNat = code at hmem hne
  split at hmem
  · rw [List.mem_singleton, hbyte] at hmem
    omega
  · split at hmem
    · simp only [List.mem_cons, List.not_mem_nil, or_false, hbyte] at hmem
      omega
    · split at hmem <;>
        simp only [List.mem_cons, List.not_mem_nil, or_false, hbyte] at hmem <;> omega

/-- The bytes of an indentation are bytes of its unit. -/
theorem Indentation.mem_encode_unit {indentation : Indentation} {level : Nat} {byte : UInt8}
    (h : byte ∈ Text.encode (indentation.lead level)) :
    byte ∈ Text.encode indentation.unit.toList := by
  obtain ⟨c, hc, hbyte⟩ := List.mem_flatMap.1 h
  exact List.mem_flatMap.2 ⟨c, mem_unit_of_mem_lead hc, hbyte⟩

/-- What is recorded of the second of two steps, which is nothing if the first was stopped. -/
def Outcome.whenDone {ε σ α : Type} (first : Outcome ε σ) (record : σ → List α) : List α :=
  match first.fault with
  | none => record first.state
  | some _ => []

theorem Outcome.whenDone_of_stopped {ε σ α : Type} {first : Outcome ε σ} {record : σ → List α}
    (h : first.fault ≠ none) : first.whenDone record = [] := by
  obtain ⟨state, _ | fault⟩ := first
  · exact absurd rfl h
  · rfl

/-- A note in a record: of a byte of an indentation, of the level for which the indentation of the
line has become complete, of a byte of a text, or of the end of a line. -/
inductive Note where
  | indent (byte : UInt8)
  | paid (level : Nat)
  | text (byte : UInt8)
  | lineEnd
  deriving DecidableEq, Repr

namespace Note

/-- The byte that stands for a line feed. -/
def lineFeed : UInt8 := 10

/-- The bytes that a note accounts for. -/
def bytes : Note → List UInt8
  | .indent byte | .text byte => [byte]
  | .paid _ => []
  | .lineEnd => [lineFeed]

@[simp]
theorem bytes_map_indent (own : List UInt8) : (own.map .indent).flatMap bytes = own := by
  simp [List.flatMap_map, bytes]

@[simp]
theorem bytes_map_text (own : List UInt8) : (own.map .text).flatMap bytes = own := by
  simp [List.flatMap_map, bytes]

end Note

namespace Pen

/-! ## Recording -/

/-- The bytes that the sink of a pen has got since it was the sink of another. -/
def gain (before after : Pen) : List UInt8 :=
  after.sink.written.toList.drop before.sink.written.size

/-- The record of paying the indentation. -/
def indentRecord (pen : Pen) : List Note :=
  if pen.owesIndent then
    (pen.gain pen.payIndent.state).map .indent ++ pen.payIndent.whenDone fun _ => [.paid pen.level]
  else []

/-- The record of writing a piece of a line. -/
def pieceRecord (pen : Pen) (piece : List Char) : List Note :=
  if piece = [] then []
  else
    pen.indentRecord
      ++ pen.payIndent.whenDone fun paid => (paid.gain (paid.write piece).state).map .text

/-- The record of ending the line. -/
def endRecord (pen : Pen) : List Note :=
  (pen.gain pen.endLine.state).map fun _ => .lineEnd

/-- The record of writing pieces of lines, each but the last followed by the end of its line. -/
def piecesRecord : List (List Char) → Pen → List Note
  | [], _ => []
  | [piece], pen => pen.pieceRecord piece
  | piece :: others, pen =>
    (pen.pieceRecord piece ++ (pen.putPiece piece).whenDone endRecord)
      ++ ((pen.putPiece piece).andThen endLine).whenDone (piecesRecord others)

/-- The record of writing text. -/
def putRecord (pen : Pen) (text : String) : List Note :=
  pen.piecesRecord (Text.lines text.toList)

/-- The record of carrying out a command. Changes of the level leave nothing on the sink. -/
def commandRecord (pen : Pen) : Command → List Note
  | .put text => pen.putRecord text
  | .putLine text => pen.putRecord text ++ (pen.put text).whenDone endRecord
  | .endLine => pen.endRecord
  | .enter | .leave => []

end Pen

/-! ## Lines of a record -/

namespace Note

/-- What stands on a line as long as its indentation is owed, and once it is not. -/
inductive IsLine (indentation : Indentation) : Bool → List Note → Prop where
  /-- There are only bytes of units, which need not make a whole indentation, or just one. -/
  | owing (pad : List UInt8)
      (hpad : ∀ byte ∈ pad, byte ∈ Text.encode indentation.unit.toList) :
      IsLine indentation true (pad.map .indent)
  /-- The text follows the whole indentation of the level for which it was paid. -/
  | paid (pad : List UInt8) (level : Nat) (text : List UInt8)
      (hpad : ∀ byte ∈ pad, byte ∈ Text.encode indentation.unit.toList)
      (hlead : Text.encode (indentation.lead level) <:+ pad) (htext : lineFeed ∉ text) :
      IsLine indentation false (pad.map .indent ++ .paid level :: text.map .text)

/-- A record is made of lines, and the last of them owes its indentation or does not. -/
def Ruled (indentation : Indentation) (owes : Bool) (record : List Note) : Prop :=
  ∃ (lines : List (List Note)) (last : List Note),
    record = lines.flatMap (· ++ [.lineEnd]) ++ last ∧
    (∀ line ∈ lines, ∃ owed, IsLine indentation owed line) ∧ IsLine indentation owes last

namespace Ruled

variable {indentation : Indentation} {owes : Bool} {record : List Note}

/-- A record begins with a line on which there is nothing yet. -/
theorem nil (indentation : Indentation) : Ruled indentation true [] :=
  ⟨[], [], rfl, nofun, .owing [] nofun⟩

/-- Bytes of units may be added to a line that owes its indentation. -/
theorem append_indent (h : Ruled indentation true record) {bytes : List UInt8}
    (hbytes : ∀ byte ∈ bytes, byte ∈ Text.encode indentation.unit.toList) :
    Ruled indentation true (record ++ bytes.map .indent) := by
  obtain ⟨lines, last, rfl, hlines, hlast⟩ := h
  cases hlast with
  | owing pad hpad =>
      exact ⟨lines, (pad ++ bytes).map .indent, by simp, hlines,
        .owing _ (List.forall_mem_append.2 ⟨hpad, hbytes⟩)⟩

/-- The indentation of a line is paid right behind the whole of it. -/
theorem append_paid (h : Ruled indentation true record) (level : Nat) :
    Ruled indentation false
      (record ++ ((Text.encode (indentation.lead level)).map .indent ++ [.paid level])) := by
  obtain ⟨lines, last, rfl, hlines, hlast⟩ := h
  cases hlast with
  | owing pad hpad =>
      have hunits : ∀ byte ∈ pad ++ Text.encode (indentation.lead level),
          byte ∈ Text.encode indentation.unit.toList :=
        List.forall_mem_append.2 ⟨hpad, fun _ => Indentation.mem_encode_unit⟩
      exact ⟨lines, (pad ++ Text.encode (indentation.lead level)).map .indent
        ++ .paid level :: [].map .text, by simp, hlines,
        .paid _ level [] hunits (List.suffix_append _ _) nofun⟩

/-- Text may be added to a line that owes no indentation. -/
theorem append_text (h : Ruled indentation false record) {bytes : List UInt8}
    (hbytes : lineFeed ∉ bytes) : Ruled indentation false (record ++ bytes.map .text) := by
  obtain ⟨lines, last, rfl, hlines, hlast⟩ := h
  cases hlast with
  | paid pad level text hpad hlead htext =>
      refine ⟨lines, pad.map .indent ++ .paid level :: (text ++ bytes).map .text, by simp, hlines,
        .paid pad level _ hpad hlead ?_⟩
      intro h
      rcases List.mem_append.1 h with h | h
      · exact htext h
      · exact hbytes h

/-- Any line may be ended. -/
theorem append_lineEnd (h : Ruled indentation owes record) :
    Ruled indentation true (record ++ [.lineEnd]) := by
  obtain ⟨lines, last, rfl, hlines, hlast⟩ := h
  refine ⟨lines ++ [last], [], by simp, ?_, .owing [] nofun⟩
  intro line hline
  rcases List.mem_append.1 hline with hline | hline
  · exact hlines line hline
  · exact ⟨owes, List.mem_singleton.1 hline ▸ hlast⟩

end Ruled

end Note

namespace Pen

/-! ## Records account for the sink -/

/-- A record accounts for how a pen got from one state to another: its bytes are those that the sink
has got, and it goes on with the lines of any record that the pen had before. -/
structure Recorded (before : Pen) (record : List Note) (after : Pen) : Prop where
  indentation : after.indentation = before.indentation
  written : after.sink.written.toList = before.sink.written.toList ++ record.flatMap Note.bytes
  ruled : ∀ earlier, Note.Ruled before.indentation before.owesIndent earlier →
    Note.Ruled before.indentation after.owesIndent (earlier ++ record)

namespace Recorded

variable {before after final : Pen} {record more : List Note}

/-- There is nothing to record of a step after which the sink has the same bytes and as much is
owed as before. -/
theorem unchanged (hindentation : after.indentation = before.indentation)
    (howes : after.owesIndent = before.owesIndent)
    (hwritten : after.sink.written = before.sink.written) : Recorded before [] after where
  indentation := hindentation
  written := by
    rw [hwritten]
    exact (List.append_nil _).symm
  ruled := by
    intro earlier hearlier
    rw [howes, List.append_nil]
    exact hearlier

theorem refl (pen : Pen) : Recorded pen [] pen :=
  .unchanged rfl rfl rfl

theorem trans (h : Recorded before record after) (hmore : Recorded after more final) :
    Recorded before (record ++ more) final where
  indentation := hmore.indentation.trans h.indentation
  written := by
    rw [hmore.written, h.written, List.flatMap_append, List.append_assoc]
  ruled := by
    intro earlier hearlier
    have hlater := hmore.ruled _ (h.indentation.symm ▸ h.ruled earlier hearlier)
    rw [h.indentation, List.append_assoc] at hlater
    exact hlater

/-- The record of two steps is that of the first and, unless it was stopped, that of the second. -/
theorem andThen {first : Outcome Fault Pen} {next : Pen → Outcome Fault Pen}
    {nextRecord : Pen → List Note} (h : Recorded before record first.state)
    (hnext : first.fault = none →
      Recorded first.state (nextRecord first.state) (next first.state).state) :
    Recorded before (record ++ first.whenDone nextRecord) (first.andThen next).state := by
  obtain ⟨after, _ | fault⟩ := first
  · exact h.trans (hnext rfl)
  · exact h.trans (.refl after)

end Recorded

/-- What a sink has got is what it has behind what it had. -/
theorem gain_eq {before after : Pen} {own : List UInt8}
    (h : after.sink.written.toList = before.sink.written.toList ++ own) :
    before.gain after = own := by
  rw [gain, h, ← Array.length_toList, List.drop_left]

/-- A write gets a part of its text onto the sink, and all of it if it is not stopped. -/
theorem exists_gain_write (pen : Pen) (text : List Char) :
    ∃ own, own <+: Text.encode text ∧ pen.gain (pen.write text).state = own ∧
      (pen.write text).state.sink.written.toList = pen.sink.written.toList ++ own ∧
      ((pen.write text).fault = none → own = Text.encode text) ∧
      ((pen.write text).fault ≠ none → own.length < (Text.encode text).length) := by
  have hwrote := write_wrote pen text
  by_cases hfault : (pen.write text).fault = none
  · have hown := hwrote.written_of_done hfault
    exact ⟨_, List.prefix_refl _, gain_eq hown, hown, fun _ => rfl, absurd hfault⟩
  · obtain ⟨own, hpart, hless, hown⟩ := hwrote.exists_of_fault hfault
    exact ⟨own, hpart, gain_eq hown, hown, fun h => absurd h hfault, fun _ => hless⟩

/-- Paying the indentation is recorded. If the sink takes only a part of it, it is still owed. -/
theorem payIndent_recorded (pen : Pen) : Recorded pen pen.indentRecord pen.payIndent.state := by
  rw [indentRecord]
  by_cases howes : pen.owesIndent = true
  · obtain ⟨own, hpart, hgain, hown, hdone, -⟩ :=
      exists_gain_write pen (pen.indentation.lead pen.level)
    rw [if_pos howes, payIndent_eq, if_pos howes]
    by_cases hfault : (pen.write (pen.indentation.lead pen.level)).fault = none
    · obtain rfl := hdone hfault
      rw [Outcome.andThen_of_done hfault]
      show Recorded pen ((pen.gain (pen.write _).state).map .indent ++ [.paid pen.level]) _
      rw [hgain]
      refine ⟨rfl, ?_, fun earlier hearlier => ?_⟩
      · rw [List.flatMap_append, Note.bytes_map_indent]
        exact hown.trans (congrArg _ (List.append_nil _).symm)
      · exact Note.Ruled.append_paid (howes ▸ hearlier) pen.level
    · rw [Outcome.andThen_of_stopped hfault, Outcome.whenDone_of_stopped hfault, hgain,
        List.append_nil]
      refine ⟨rfl, ?_, fun earlier hearlier => ?_⟩
      · rw [Note.bytes_map_indent]
        exact hown
      · show Note.Ruled pen.indentation pen.owesIndent _
        rw [howes] at hearlier ⊢
        exact hearlier.append_indent fun byte hbyte =>
          Indentation.mem_encode_unit (hpart.subset hbyte)
  · rw [if_neg howes, payIndent, if_neg howes]
    exact .refl pen

/-- Writing a text on a line that owes no indentation is recorded. -/
theorem write_recorded {pen : Pen} (hpaid : pen.owesIndent = false) {text : List Char}
    (htext : '\n' ∉ text) :
    Recorded pen ((pen.gain (pen.write text).state).map .text) (pen.write text).state := by
  obtain ⟨own, hpart, hgain, hown, -, -⟩ := exists_gain_write pen text
  rw [hgain]
  refine ⟨rfl, ?_, fun earlier hearlier => ?_⟩
  · rw [Note.bytes_map_text]
    exact hown
  · show Note.Ruled pen.indentation pen.owesIndent _
    rw [hpaid] at hearlier ⊢
    exact hearlier.append_text fun hmem =>
      Text.lineFeed_not_mem_encode htext (hpart.subset hmem)

/-- Ending a line is recorded, unless the sink has no space for the line feed. -/
theorem endLine_recorded (pen : Pen) : Recorded pen pen.endRecord pen.endLine.state := by
  obtain ⟨own, -, hgain, hown, hdone, hstopped⟩ := exists_gain_write pen ['\n']
  rw [endRecord, endLine]
  by_cases hfault : (pen.write ['\n']).fault = none
  · have hfeed : Text.encode ['\n'] = [Note.lineFeed] := by decide
    obtain rfl : own = [Note.lineFeed] := (hdone hfault).trans hfeed
    rw [Outcome.andThen_of_done hfault]
    show Recorded pen ((pen.gain (pen.write _).state).map _) _
    rw [hgain]
    exact ⟨rfl, hown, fun earlier hearlier => hearlier.append_lineEnd⟩
  · obtain rfl : own = [] := List.length_eq_zero_iff.1 (Nat.lt_one_iff.1 (hstopped hfault))
    rw [Outcome.andThen_of_stopped hfault, hgain, List.map_nil]
    exact ⟨rfl, hown, fun earlier hearlier => (List.append_nil earlier).symm ▸ hearlier⟩

/-- Indentation that was paid is not owed. -/
theorem owesIndent_payIndent {pen : Pen} (hdone : pen.payIndent.fault = none) :
    pen.payIndent.state.owesIndent = false := by
  rw [payIndent_eq] at hdone ⊢
  by_cases hfault : (pen.write
      (if pen.owesIndent then pen.indentation.lead pen.level else [])).fault = none
  · rw [Outcome.andThen_of_done hfault]
    rfl
  · rw [Outcome.andThen_of_stopped hfault] at hdone
    exact absurd hdone hfault

/-- Writing a piece of a line is recorded. -/
theorem putPiece_recorded (pen : Pen) {piece : List Char} (hpiece : '\n' ∉ piece) :
    Recorded pen (pen.pieceRecord piece) (pen.putPiece piece).state := by
  rw [pieceRecord, putPiece]
  split
  · exact .refl pen
  · exact pen.payIndent_recorded.andThen fun hdone =>
      write_recorded (owesIndent_payIndent hdone) hpiece

/-- Writing pieces of lines is recorded. -/
theorem putPieces_recorded {pieces : List (List Char)} (hpieces : ∀ piece ∈ pieces, '\n' ∉ piece)
    (pen : Pen) : Recorded pen (piecesRecord pieces pen) (putPieces pieces pen).state := by
  induction pieces generalizing pen with
  | nil => exact .refl pen
  | cons piece others ih =>
      obtain ⟨hpiece, hothers⟩ := List.forall_mem_cons.1 hpieces
      have hput := putPiece_recorded pen hpiece
      cases others with
      | nil => exact hput
      | cons next others =>
          exact (hput.andThen fun _ => endLine_recorded _).andThen fun _ => ih hothers _

/-- Writing text is recorded. -/
theorem put_recorded (pen : Pen) (text : String) :
    Recorded pen (pen.putRecord text) (pen.put text).state :=
  putPieces_recorded Text.not_mem_of_mem_pieces pen

/-- A command is recorded, whether or not it is carried out to its end. -/
theorem perform_recorded (pen : Pen) (command : Command) :
    Recorded pen (pen.commandRecord command) (pen.perform command).state := by
  cases command with
  | put text => exact pen.put_recorded text
  | putLine text => exact (pen.put_recorded text).andThen fun _ => endLine_recorded _
  | endLine => exact pen.endLine_recorded
  | enter => exact .unchanged rfl rfl rfl
  | leave =>
      obtain ⟨indentation, level, owesIndent, sink⟩ := pen
      cases level with
      | zero => exact .refl _
      | succ level => exact .unchanged rfl rfl rfl

end Pen

end JavaResources
