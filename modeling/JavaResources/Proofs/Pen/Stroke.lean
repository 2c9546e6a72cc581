import JavaResources.Pen
import JavaResources.Proofs.Sink.Capacity

/-!
# Text as single strokes

A stroke is a character with the level it is drawn at. `Pen.drawAll` draws strokes one at a time,
and `put_eq` says that writing a text is drawing its characters: how a pen cuts a text into pieces
and writes cannot be told from the outcome, not even where the sink refuses.
-/

namespace JavaResources

/-- A character as a pen draws it: with the level in force. -/
structure Stroke where
  level : Nat
  char : Char
  deriving DecidableEq, Repr

namespace Stroke

/-- The strokes of a text that is drawn at one level. -/
def ofText (level : Nat) (text : List Char) : List Stroke :=
  text.map (⟨level, ·⟩)

@[simp]
theorem ofText_append (level : Nat) (first second : List Char) :
    ofText level (first ++ second) = ofText level first ++ ofText level second :=
  List.map_append

/-- The stroke ends its line. -/
def endsLine (stroke : Stroke) : Bool :=
  stroke.char = '\n'

end Stroke

/-- The text that indents a line at a level. -/
def Indentation.lead (indentation : Indentation) (level : Nat) : List Char :=
  (List.replicate level indentation.unit.toList).flatten

/-- An indentation is made of the characters of its unit. -/
theorem Indentation.mem_unit_of_mem_lead {indentation : Indentation} {level : Nat} {c : Char}
    (h : c ∈ indentation.lead level) : c ∈ indentation.unit.toList := by
  obtain ⟨unit, hunits, hc⟩ := List.mem_flatten.1 h
  exact List.eq_of_mem_replicate hunits ▸ hc

/-- No unit of indentation ends a line. -/
theorem Indentation.lineFeed_not_mem_unit (indentation : Indentation) :
    '\n' ∉ indentation.unit.toList := by
  cases indentation with
  | spaces width => simp [unit]
  | tab => decide

/-- No indentation ends a line. -/
theorem Indentation.lineFeed_not_mem_lead (indentation : Indentation) (level : Nat) :
    '\n' ∉ indentation.lead level :=
  fun h => indentation.lineFeed_not_mem_unit (mem_unit_of_mem_lead h)

namespace Pen

/-! ## Drawing -/

/-- The pen at another level. -/
def atLevel (pen : Pen) (level : Nat) : Pen :=
  { pen with level }

@[simp]
theorem atLevel_level (pen : Pen) : pen.atLevel pen.level = pen := rfl

/-- Draw one character at its level. -/
def draw (pen : Pen) (stroke : Stroke) : Outcome Fault Pen :=
  if stroke.endsLine then (pen.atLevel stroke.level).endLine
  else (pen.atLevel stroke.level).payIndent.andThen (·.write [stroke.char])

/-- Draw characters in order until the sink refuses. -/
def drawAll : List Stroke → Pen → Outcome Fault Pen
  | [], pen => .done pen
  | stroke :: others, pen => (pen.draw stroke).andThen (drawAll others)

/-- Strokes one after the other are drawn one after the other. -/
theorem drawAll_append (first second : List Stroke) (pen : Pen) :
    drawAll (first ++ second) pen = (drawAll first pen).andThen (drawAll second) := by
  induction first generalizing pen with
  | nil => rfl
  | cons stroke others ih =>
      simp only [List.cons_append, drawAll, Outcome.andThen_assoc]
      exact Outcome.andThen_congr fun _ => ih _

/-! ## What the steps of a pen write -/

/-- A write changes nothing but the sink. -/
theorem write_eq (pen : Pen) (text : List Char) :
    pen.write text
      = (pen.sink.writeAll (Text.encode text)).lift (fun sink => { pen with sink }) Fault.sink :=
  rfl

@[simp]
theorem write_nil (pen : Pen) : pen.write [] = .done pen := by
  rw [write_eq, Text.encode, List.flatMap_nil, Sink.writeAll, if_pos rfl]
  rfl

/-- Text may be cut anywhere and written in two goes. -/
theorem write_append (pen : Pen) (first second : List Char) :
    pen.write (first ++ second) = (pen.write first).andThen (·.write second) := by
  rw [write_eq, Text.encode_append, Sink.writeAll_append, write_eq]
  obtain ⟨sink, _ | error⟩ := pen.sink.writeAll (Text.encode first) <;> rfl

/-- The units of an indentation are written like one text. -/
theorem writeUnits_eq (count : Nat) (pen : Pen) :
    writeUnits count pen = pen.write (pen.indentation.lead count) := by
  induction count generalizing pen with
  | zero => exact (write_nil pen).symm
  | succ count ih =>
      have hlead : pen.indentation.lead (count + 1)
          = pen.indentation.unit.toList ++ pen.indentation.lead count := rfl
      rw [hlead, write_append, writeUnits]
      exact Outcome.andThen_congr fun _ => ih _

/-- Indentation that is owed is written and then owed no more. -/
theorem payIndent_eq (pen : Pen) :
    pen.payIndent
      = (pen.write (if pen.owesIndent then pen.indentation.lead pen.level else [])).andThen
          fun paid => .done { paid with owesIndent := false } := by
  obtain ⟨indentation, level, owesIndent, sink⟩ := pen
  cases owesIndent with
  | false =>
      rw [if_neg Bool.false_ne_true, write_nil]
      rfl
  | true =>
      rw [if_pos rfl, ← writeUnits_eq]
      rfl

/-- A piece goes on a line that owes nothing without more ado. -/
theorem putPiece_of_paid {pen : Pen} (hpaid : pen.owesIndent = false) (piece : List Char) :
    pen.putPiece piece = pen.write piece := by
  unfold putPiece
  split
  · next hpiece => rw [hpiece, write_nil]
  · rw [payIndent, hpaid]
    rfl

/-- A stroke that was drawn leaves the pen at its level, and owing indentation if it ended the line.
-/
theorem state_draw {pen : Pen} {stroke : Stroke} (hdrawn : (pen.draw stroke).fault = none) :
    (pen.draw stroke).state
      = ⟨pen.indentation, stroke.level, stroke.endsLine, (pen.draw stroke).state.sink⟩ := by
  revert hdrawn
  unfold draw
  split
  · next hend =>
      rw [hend, endLine, write_eq]
      obtain ⟨sink, _ | error⟩ := (pen.atLevel stroke.level).sink.writeAll (Text.encode ['\n'])
      · exact fun _ => rfl
      · exact fun h => absurd h (Option.some_ne_none _)
  · next hend =>
      rw [Bool.not_eq_true] at hend
      rw [hend, payIndent_eq, write_eq, Outcome.andThen_assoc]
      generalize (pen.atLevel stroke.level).sink.writeAll _ = paid
      obtain ⟨sink, _ | error⟩ := paid
      · simp only [Outcome.lift, Outcome.andThen, Option.map_none, write_eq]
        intro
        rfl
      · exact fun h => absurd h (Option.some_ne_none _)

/-! ## Text is drawn character by character -/

/-- The first character of a piece is a stroke of its own. -/
theorem putPiece_cons (pen : Pen) {c : Char} (hc : c ≠ '\n') (piece : List Char) :
    pen.putPiece (c :: piece) = (pen.draw ⟨pen.level, c⟩).andThen (·.putPiece piece) := by
  have hpiece : pen.putPiece (c :: piece)
      = pen.payIndent.andThen fun paid => (paid.write [c]).andThen (·.write piece) := by
    rw [putPiece, if_neg (List.cons_ne_nil c piece)]
    exact Outcome.andThen_congr fun _ => write_append _ [c] piece
  have hdraw : pen.draw ⟨pen.level, c⟩ = pen.payIndent.andThen (·.write [c]) := by
    rw [draw, if_neg (by simpa [Stroke.endsLine] using hc), atLevel_level]
  rw [hpiece, ← Outcome.andThen_assoc, ← hdraw]
  -- The rest of the piece stands behind a character, where no indentation is owed.
  refine Outcome.andThen_congr fun hdrawn => (putPiece_of_paid ?_ piece).symm
  rw [state_draw hdrawn]
  exact decide_eq_false hc

/-- The first character of pieces is a stroke of its own. -/
theorem putPieces_cons (pen : Pen) {c : Char} (hc : c ≠ '\n') (piece : List Char)
    (others : List (List Char)) :
    putPieces ((c :: piece) :: others) pen
      = (pen.draw ⟨pen.level, c⟩).andThen (putPieces (piece :: others)) := by
  cases others with
  | nil => exact putPiece_cons pen hc piece
  | cons next others =>
      simp only [putPieces, putPiece_cons pen hc, Outcome.andThen_assoc]

/-- Pieces behind an empty one follow the end of its line. -/
theorem putPieces_nil_cons (pen : Pen) {others : List (List Char)} (hothers : others ≠ []) :
    putPieces ([] :: others) pen = pen.endLine.andThen (putPieces others) := by
  cases others with
  | nil => contradiction
  | cons next others => simp only [putPieces, putPiece, if_true, Outcome.done_andThen]

/-- Writing the lines of a text is drawing its characters. -/
theorem putPieces_lines (text : List Char) (pen : Pen) :
    putPieces (Text.lines text) pen = drawAll (Stroke.ofText pen.level text) pen := by
  induction text generalizing pen with
  | nil => rfl
  | cons c rest ih =>
      -- A stroke at the level of the pen leaves the level as it is.
      have hrest (hdrawn : (pen.draw ⟨pen.level, c⟩).fault = none) :
          putPieces (Text.lines rest) (pen.draw ⟨pen.level, c⟩).state
            = drawAll (Stroke.ofText pen.level rest) (pen.draw ⟨pen.level, c⟩).state := by
        rw [ih, state_draw hdrawn]
      show putPieces (Text.pieces '\n' (c :: rest)) pen
        = (pen.draw ⟨pen.level, c⟩).andThen (drawAll (Stroke.ofText pen.level rest))
      rw [← Outcome.andThen_congr hrest]
      by_cases hc : c = '\n'
      · subst hc
        rw [Text.pieces, if_pos rfl, putPieces_nil_cons pen (Text.pieces_ne_nil _ _)]
        rfl
      · have hne := Text.pieces_ne_nil '\n' rest
        rw [Text.pieces, if_neg hc, Text.lines]
        cases hpieces : Text.pieces '\n' rest with
        | nil => contradiction
        | cons piece others => exact putPieces_cons pen hc piece others

/-- Writing a text is drawing its characters at the level of the pen. -/
theorem put_eq (pen : Pen) (text : String) :
    pen.put text = drawAll (Stroke.ofText pen.level text.toList) pen :=
  putPieces_lines text.toList pen

end Pen

end JavaResources
