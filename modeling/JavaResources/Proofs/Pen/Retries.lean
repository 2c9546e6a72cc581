import JavaResources.Proofs.Pen.Record
import JavaResources.Proofs.Pen.Stopping
import Mathlib.Data.List.DropRight

/-!
# Going on after errors

A caller may go on with a pen after an error, give the sink more space and try again.
`attemptAll_recorded` says what holds of any such run: the level counts what was entered and left,
what is owed stands on a line with nothing but bytes of indentation, and text stands only behind the
whole indentation of its line. A retry may repeat a part of an indentation or of a text. It never
puts text before the indentation or indentation into a text.
-/

namespace JavaResources

/-- What a caller does with a pen, whatever has become of the attempts before. -/
inductive Attempt where
  | command (command : Command)
  | grow (bytes : Nat)
  deriving DecidableEq, Repr

namespace Pen

/-- Carry out a command or give the sink more space. -/
def attempt (pen : Pen) : Attempt → Outcome Fault Pen
  | .command command => pen.perform command
  | .grow bytes => .done { pen with sink := pen.sink.grow bytes }

/-- Make attempts in order, also after faults. -/
def attemptAll (pen : Pen) (attempts : List Attempt) : Pen :=
  attempts.foldl (fun pen attempt => (pen.attempt attempt).state) pen

/-- The attempts of a run that were not stopped. -/
def carriedOut (pen : Pen) : List Attempt → List Attempt
  | [] => []
  | attempt :: others =>
    (if (pen.attempt attempt).fault = none then [attempt] else [])
      ++ (pen.attempt attempt).state.carriedOut others

/-- The record of an attempt. -/
def attemptRecord (pen : Pen) : Attempt → List Note
  | .command command => pen.commandRecord command
  | .grow _ => []

/-- The record of attempts. -/
def recordAll (pen : Pen) : List Attempt → List Note
  | [] => []
  | attempt :: others =>
    pen.attemptRecord attempt ++ (pen.attempt attempt).state.recordAll others

/-! ## Levels -/

/-- An attempt enters a level, leaves one or keeps it. Leaving level zero is stopped. -/
theorem level_attempt (pen : Pen) (attempt : Attempt) :
    (pen.attempt attempt).state.level + (pen.carriedOut [attempt]).count (.command .leave)
      = pen.level + [attempt].count (.command .enter) := by
  cases attempt with
  | grow bytes => rfl
  | command command =>
      have hcarried : pen.carriedOut [.command command]
          = if (pen.perform command).fault = none then [.command command] else [] :=
        List.append_nil _
      show (pen.perform command).state.level + _ = _
      rw [hcarried, pen.level_perform command]
      cases command with
      | put text | putLine text | endLine => split <;> rfl
      | enter => rfl
      | leave =>
          obtain ⟨indentation, level, owesIndent, sink⟩ := pen
          cases level with
          | zero => rfl
          | succ level => rfl

/-- The level is the number of levels that were entered less the number of those left. -/
theorem level_attemptAll (pen : Pen) (attempts : List Attempt) :
    (pen.attemptAll attempts).level + (pen.carriedOut attempts).count (.command .leave)
      = pen.level + attempts.count (.command .enter) := by
  induction attempts generalizing pen with
  | nil => rfl
  | cons attempt others ih =>
      have hfirst := pen.level_attempt attempt
      have hothers := ih (pen.attempt attempt).state
      have hcarried : pen.carriedOut (attempt :: others)
          = pen.carriedOut [attempt] ++ (pen.attempt attempt).state.carriedOut others := by
        simp [carriedOut]
      show ((pen.attempt attempt).state.attemptAll others).level + _
        = pen.level + ([attempt] ++ others).count _
      rw [hcarried, List.count_append, List.count_append]
      omega

/-! ## Records -/

/-- An attempt is recorded. -/
theorem attempt_recorded (pen : Pen) (attempt : Attempt) :
    Recorded pen (pen.attemptRecord attempt) (pen.attempt attempt).state := by
  cases attempt with
  | command command => exact pen.perform_recorded command
  | grow bytes => exact .unchanged rfl rfl rfl

/-- A run of attempts is recorded. -/
theorem recordAll_recorded (pen : Pen) (attempts : List Attempt) :
    Recorded pen (pen.recordAll attempts) (pen.attemptAll attempts) := by
  induction attempts generalizing pen with
  | nil => exact .refl pen
  | cons attempt others ih => exact (pen.attempt_recorded attempt).trans (ih _)

end Pen

/-! ## The last line of a record -/

namespace Note

/-- What stands behind the last separator stands behind any part that ends with one. -/
theorem mem_of_mem_rtakeWhile {α : Type} {p : α → Bool} {front : List α}
    (hfront : front.rtakeWhile p = []) {rest : List α} {a : α}
    (ha : a ∈ (front ++ rest).rtakeWhile p) : a ∈ rest := by
  induction rest using List.reverseRecOn with
  | nil =>
      rw [List.append_nil, hfront] at ha
      exact ha
  | append_singleton rest last ih =>
      rw [← List.append_assoc, List.rtakeWhile_concat] at ha
      split at ha
      · rcases List.mem_append.1 ha with ha | ha
        · exact List.mem_append_left _ (ih ha)
        · exact List.mem_append_right _ ha
      · exact absurd ha List.not_mem_nil

/-- There is nothing behind the end of the last of some lines. -/
theorem rtakeWhile_lines (lines : List (List Note)) :
    ((lines.flatMap (· ++ [.lineEnd])).flatMap bytes).rtakeWhile (· ≠ lineFeed) = [] := by
  cases lines using List.reverseRecOn with
  | nil => rfl
  | append_singleton lines last =>
      have hbytes : ((lines ++ [last]).flatMap (· ++ [.lineEnd])).flatMap bytes
          = ((lines.flatMap (· ++ [.lineEnd])).flatMap bytes ++ last.flatMap bytes)
            ++ [lineFeed] := by
        simp [bytes]
      rw [hbytes]
      exact List.rtakeWhile_concat_neg _ _ _ (by simp)

/-- On a line that owes its indentation there are only bytes of units. -/
theorem Ruled.mem_unit {indentation : Indentation} {record : List Note}
    (h : Ruled indentation true record) {byte : UInt8}
    (hbyte : byte ∈ (record.flatMap bytes).rtakeWhile (· ≠ lineFeed)) :
    byte ∈ Text.encode indentation.unit.toList := by
  obtain ⟨lines, last, rfl, -, hlast⟩ := h
  rw [List.flatMap_append] at hbyte
  have hmem := mem_of_mem_rtakeWhile (rtakeWhile_lines lines) hbyte
  cases hlast with
  | owing pad hpad =>
      rw [bytes_map_indent] at hmem
      exact hpad byte hmem

end Note

/-- Any run of attempts with a new pen on any sink, which may fail at every byte. The level is the
number of levels entered less the number of those left, where leaving level zero is stopped and
changes nothing. The record of the run accounts for what the sink has got. While indentation is
owed, there is nothing on the last line but bytes of units. On every line the text starts right
behind the whole indentation of the level at which it was paid. -/
theorem Pen.attemptAll_recorded (indentation : Indentation) (sink : Sink)
    (attempts : List Attempt) :
    let pen : Pen := { indentation, sink }
    let after := pen.attemptAll attempts
    let record := pen.recordAll attempts
    (after.level + (pen.carriedOut attempts).count (.command .leave)
        = attempts.count (.command .enter) ∧
      ∀ stuck : Pen, stuck.leave.fault ≠ none → stuck.leave.state = stuck) ∧
    after.sink.written.toList = sink.written.toList ++ record.flatMap Note.bytes ∧
    (after.owesIndent = true →
      ∀ byte ∈ (record.flatMap Note.bytes).rtakeWhile (· ≠ Note.lineFeed),
        byte ∈ Text.encode indentation.unit.toList) ∧
    Note.Ruled indentation after.owesIndent record := by
  intro pen after record
  have hrecorded := pen.recordAll_recorded attempts
  have hruled := hrecorded.ruled [] (.nil indentation)
  refine ⟨⟨?_, ?_⟩, hrecorded.written, ?_, hruled⟩
  · exact (pen.level_attemptAll attempts).trans (Nat.zero_add _)
  · intro stuck hstuck
    obtain ⟨indentation, level, owesIndent, sink⟩ := stuck
    cases level with
    | zero => rfl
    | succ level => exact absurd rfl hstuck
  · intro howes byte hbyte
    exact (howes ▸ hruled : Note.Ruled indentation true record).mem_unit hbyte

/-- Two of eight blanks fit on the sink. The retry writes all eight behind them. -/
example :
    Pen.recordAll { indentation := .spaces 4, sink := { space := some 2 } }
        [.command .enter, .command .enter, .command (.put "x"), .grow 9, .command (.put "x")]
      = List.replicate 10 (.indent 32) ++ [.paid 2, .text 120] := by
  decide +kernel

end JavaResources
