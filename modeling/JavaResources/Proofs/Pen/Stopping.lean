import JavaResources.Proofs.Pen.Levels

/-!
# The level at which commands stop

Commands that are stopped by their sink leave the pen at the level of the command that was being
carried out. `levelWriting?_of_fault` says that this is the level at which the first byte that the
sink refused is written on a sink that refuses nothing. `Command.peak` bounds the levels that
commands reach, and `level_performAll` ties it to the pen, stopped or not.
-/

namespace JavaResources

/-- A sink that refuses nothing takes bytes and goes on to refuse nothing. -/
theorem Sink.Unlimited.writeAll {sink : Sink} (h : sink.Unlimited) (bytes : List UInt8) :
    (sink.writeAll bytes).state.Unlimited := by
  by_cases hbytes : bytes = []
  · rw [hbytes, Sink.writeAll, if_pos rfl]
    exact h
  · rw [writeAll_eq sink hbytes]
    show (sink.accept _ bytes).capacity = none
    rw [capacity_accept, h]
    rfl

/-! ## The highest level of commands -/

namespace Command

/-- The highest level that commands reach from a level on. -/
def peak : Nat → List Command → Nat
  | level, [] => level
  | level, command :: others => max level (peak (command.levelAfter level) others)

theorem le_peak (level : Nat) (commands : List Command) : level ≤ peak level commands := by
  cases commands with
  | nil => exact Nat.le_refl level
  | cons command others => exact Nat.le_max_left _ _

theorem peak_append (level : Nat) (first second : List Command) :
    peak level (first ++ second)
      = max (peak level first) (peak (levelAfterAll level first) second) := by
  induction first generalizing level with
  | nil => exact (Nat.max_eq_right (le_peak level second)).symm
  | cons command others ih =>
      show max level (peak _ (others ++ second)) = max (max level (peak _ others)) _
      rw [ih, Nat.max_assoc]
      rfl

/-- At no time are commands at a higher level than their highest. -/
theorem levelAfterAll_le_peak (level : Nat) {begun commands : List Command}
    (h : begun <+: commands) : levelAfterAll level begun ≤ peak level commands := by
  obtain ⟨others, rfl⟩ := h
  rw [peak_append]
  exact Nat.le_trans (le_peak _ others) (Nat.le_max_right _ _)

/-- Commands that only write text stay at their level. -/
theorem peak_of_writesText {commands : List Command} (h : commands.all writesText = true)
    (level : Nat) : peak level commands = level := by
  induction commands with
  | nil => rfl
  | cons command others ih =>
      rw [List.all_cons, Bool.and_eq_true] at h
      rw [peak, levelAfter_of_writesText h.1, ih h.2, Nat.max_self]

theorem Permitted.of_prefix {level : Nat} {begun commands : List Command}
    (h : Permitted level commands) (hbegun : begun <+: commands) : Permitted level begun := by
  obtain ⟨others, rfl⟩ := hbegun
  exact (permitted_append.1 h).1

/-- Permitted commands reach as much higher levels as they start higher. -/
theorem Permitted.peak_add {level : Nat} {commands : List Command} (h : Permitted level commands)
    (levels : Nat) : peak (level + levels) commands = peak level commands + levels := by
  induction commands generalizing level with
  | nil => rfl
  | cons command others ih =>
      obtain ⟨hcommand, hothers⟩ := h
      have hfirst : Permitted level [command] := ⟨hcommand, trivial⟩
      have hlevel : command.levelAfter (level + levels) = command.levelAfter level + levels :=
        (hfirst.deepen levels).2.1
      rw [peak, peak, hlevel, ih hothers, Nat.add_max_add_right]

/-- The levels of a head, of a body between entering and leaving, and of an end. -/
theorem peak_scope {head body last : List Command} (hhead : head.all writesText = true)
    (hbody : Closed body) (hlast : last.all writesText = true) :
    peak 0 (head ++ .enter :: body ++ .leave :: last) = 1 + peak 0 body := by
  have hlevel : levelAfterAll 0 (head ++ .enter :: body) = 1 := by
    rw [levelAfterAll_append, (Closed.of_writesText hhead).level]
    exact hbody.levelAfterAll_eq 1
  have henter : peak 0 (.enter :: body) = peak 0 body + 1 := by
    show max 0 (peak (0 + 1) body) = _
    rw [hbody.permitted.peak_add, Nat.zero_max]
  have hleave : peak 1 (.leave :: last) = 1 := by
    show max 1 (peak 0 last) = 1
    rw [peak_of_writesText hlast]
    rfl
  rw [peak_append, hlevel, hleave, peak_append, (Closed.of_writesText hhead).level, henter,
    peak_of_writesText hhead]
  omega

end Command

namespace Pen

/-! ## The level of a pen -/

/-- Two steps that keep a pen at a level keep it there one after the other, stopped or not. -/
theorem level_andThen {level : Nat} {first : Outcome Fault Pen} {next : Pen → Outcome Fault Pen}
    (hfirst : first.state.level = level)
    (hnext : ∀ pen : Pen, pen.level = level → (next pen).state.level = level) :
    (first.andThen next).state.level = level := by
  obtain ⟨pen, _ | fault⟩ := first
  · exact hnext pen hfirst
  · exact hfirst

/-- Drawing leaves the pen at the level of the stroke, whether or not the sink has taken it. -/
theorem level_draw (pen : Pen) (stroke : Stroke) :
    (pen.draw stroke).state.level = stroke.level := by
  unfold draw
  split
  · exact level_andThen rfl fun _ hended => hended
  · rw [payIndent_eq]
    exact level_andThen (level_andThen rfl fun _ hpaid => hpaid) fun _ hpaid => hpaid

/-- Drawing a text leaves a pen that is at its level there. -/
theorem level_drawAll_ofText (text : List Char) {level : Nat} {pen : Pen} (h : pen.level = level) :
    (drawAll (Stroke.ofText level text) pen).state.level = level := by
  induction text generalizing pen with
  | nil => exact h
  | cons c rest ih => exact level_andThen (level_draw pen ⟨level, c⟩) fun _ hdrawn => ih hdrawn

/-- A command that is carried out takes the pen to its level. One that is stopped leaves the level
as it was. -/
theorem level_perform (pen : Pen) (command : Command) :
    (pen.perform command).state.level
      = if (pen.perform command).fault = none then command.levelAfter pen.level
        else pen.level := by
  by_cases h : command = .leave → 0 < pen.level
  · have hdrawn := level_drawAll_ofText command.text (Eq.refl pen.level)
    rw [perform_eq h]
    generalize drawAll (Stroke.ofText pen.level command.text) pen = outcome at hdrawn ⊢
    obtain ⟨drawn, _ | fault⟩ := outcome
    · rfl
    · exact hdrawn.trans (if_neg (Option.some_ne_none fault)).symm
  · obtain ⟨rfl, hlevel⟩ := Classical.not_imp.1 h
    obtain ⟨indentation, level, owesIndent, sink⟩ := pen
    obtain rfl : level = 0 := Nat.eq_zero_of_not_pos hlevel
    rfl

/-- The level of the pen is the one that the commands have reached which were carried out. -/
theorem level_performAll (commands : List Command) (pen : Pen) :
    ∃ done, done <+: commands ∧
      (performAll commands pen).state.level = Command.levelAfterAll pen.level done := by
  induction commands generalizing pen with
  | nil => exact ⟨[], List.prefix_refl [], rfl⟩
  | cons command others ih =>
      have hlevel := level_perform pen command
      rw [performAll]
      by_cases hfault : (pen.perform command).fault = none
      · rw [if_pos hfault] at hlevel
        obtain ⟨done, hdone, hafter⟩ := ih (pen.perform command).state
        refine ⟨command :: done, List.cons_prefix_cons.2 ⟨rfl, hdone⟩, ?_⟩
        rw [Outcome.andThen_of_done hfault, hafter, hlevel]
        rfl
      · rw [if_neg hfault] at hlevel
        rw [Outcome.andThen_of_stopped hfault]
        exact ⟨[], List.nil_prefix, hlevel⟩

/-- Permitted commands that are carried out leave the pen at the level they reach. -/
theorem level_performAll_of_done {commands : List Command} {pen : Pen}
    (h : Command.Permitted pen.level commands) (hdone : (performAll commands pen).fault = none) :
    (performAll commands pen).state.level = Command.levelAfterAll pen.level commands := by
  rw [performAll_eq h] at hdone ⊢
  generalize drawAll (Command.strokesAll pen.level commands) pen = outcome at hdone ⊢
  obtain ⟨drawn, _ | fault⟩ := outcome
  · rfl
  · exact absurd hdone (Option.some_ne_none fault)

/-- Permitted commands never leave a level that was not entered. -/
theorem fault_performAll_ne {commands : List Command} {pen : Pen}
    (h : Command.Permitted pen.level commands) :
    (performAll commands pen).fault ≠ some .notEntered := by
  rw [(performAll_wrote h).fault_eq]
  cases (pen.sink.writeAll _).fault with
  | none => exact nofun
  | some error => exact nofun

/-! ## What is written by the command that stops -/

/-- Drawing leaves the pen as it was, save for the level, the sink and what is owed. -/
theorem state_drawAll {strokes : List Stroke} {pen : Pen}
    (hdrawn : (drawAll strokes pen).fault = none) (level : Nat) :
    (drawAll strokes pen).state.atLevel level
      = ⟨pen.indentation, level, Stroke.owesAfter pen.owesIndent strokes,
          (drawAll strokes pen).state.sink⟩ := by
  induction strokes generalizing pen with
  | nil => rfl
  | cons stroke others ih =>
      rw [drawAll] at hdrawn ⊢
      by_cases hfirst : (pen.draw stroke).fault = none
      · rw [Outcome.andThen_of_done hfirst] at hdrawn ⊢
        rw [ih hdrawn, state_draw hfirst]
        rfl
      · rw [Outcome.andThen_of_stopped hfirst] at hdrawn
        exact absurd hdrawn hfirst

/-- A command that is carried out takes the pen on, whatever the sink. -/
theorem state_perform {command : Command} {pen : Pen} (h : command = .leave → 0 < pen.level)
    (hdone : (pen.perform command).fault = none) :
    (pen.perform command).state
      = ⟨pen.indentation, command.levelAfter pen.level,
          Stroke.owesAfter pen.owesIndent (Stroke.ofText pen.level command.text),
          (pen.perform command).state.sink⟩ := by
  rw [perform_eq h] at hdone ⊢
  by_cases hdrawn : (drawAll (Stroke.ofText pen.level command.text) pen).fault = none
  · rw [Outcome.andThen_of_done hdrawn]
    exact state_drawAll hdrawn (command.levelAfter pen.level)
  · rw [Outcome.andThen_of_stopped hdrawn] at hdone
    exact absurd hdone hdrawn

/-- The ink of a command that a pen carries out. -/
def inkOf (pen : Pen) (command : Command) : List Char :=
  Stroke.ink pen.indentation pen.owesIndent (Stroke.ofText pen.level command.text)

/-- A command writes its ink. -/
theorem perform_wrote {command : Command} {pen : Pen} (h : command = .leave → 0 < pen.level) :
    Wrote pen.sink (pen.inkOf command) (pen.perform command) := by
  rw [perform_eq h]
  exact (drawAll_wrote _ pen).andThen_done (·.atLevel _) fun _ => rfl

/-- The level of the pen while commands write the byte that comes to stand at a position of their
sink, if they write it. -/
def levelWriting? (position : Nat) : List Command → Pen → Option Nat
  | [], _ => none
  | command :: others, pen =>
    let outcome := pen.perform command
    if position < outcome.state.sink.written.size then some pen.level
    else if outcome.fault = none then levelWriting? position others outcome.state
    else none

/-- A byte that a command writes is written at the level before it. -/
theorem levelWriting?_of_lt {position : Nat} {command : Command} {others : List Command}
    {pen : Pen} (h : position < (pen.perform command).state.sink.written.size) :
    levelWriting? position (command :: others) pen = some pen.level :=
  if_pos h

/-- A byte that a command leaves to others is written at the level of theirs. -/
theorem levelWriting?_of_le {position : Nat} {command : Command} {others : List Command}
    {pen : Pen} (h : (pen.perform command).state.sink.written.size ≤ position)
    (hdone : (pen.perform command).fault = none) :
    levelWriting? position (command :: others) pen
      = levelWriting? position others (pen.perform command).state := by
  rw [levelWriting?, if_neg (Nat.not_lt.2 h), if_pos hdone]

/-- On a sink that refuses nothing, a command is carried out and its ink written. -/
theorem perform_of_unlimited {command : Command} {pen : Pen}
    (h : command = .leave → 0 < pen.level) (hsink : pen.sink.Unlimited) :
    (pen.perform command).fault = none ∧ (pen.perform command).state.sink.Unlimited ∧
      (pen.perform command).state.sink.written.size
        = pen.sink.written.size + (Text.encode (pen.inkOf command)).length := by
  have hwrote := perform_wrote h
  obtain ⟨hfault, hwritten⟩ := hwrote.of_unlimited hsink
  refine ⟨hfault, ?_, ?_⟩
  · rw [hwrote.sink_eq]
    exact hsink.writeAll _
  · simpa using congrArg List.length hwritten

/-- Commands that are stopped leave the pen at the level at which they write the next byte on a sink
that refuses nothing. -/
theorem levelWriting?_of_fault {commands : List Command} {pen : Pen}
    (hpermitted : Command.Permitted pen.level commands)
    (hfault : (performAll commands pen).fault ≠ none) {free : Sink} (hfree : free.Unlimited) :
    ∃ own, (performAll commands pen).state.sink.written.toList = pen.sink.written.toList ++ own ∧
      levelWriting? (free.written.size + own.length) commands { pen with sink := free }
        = some (performAll commands pen).state.level := by
  induction commands generalizing pen free with
  | nil => exact absurd rfl hfault
  | cons command others ih =>
      obtain ⟨hcommand, hothers⟩ := hpermitted
      let twin : Pen := { pen with sink := free }
      have hwrote := perform_wrote hcommand
      obtain ⟨htwin, hunlimited, hsize⟩ :=
        perform_of_unlimited (show command = .leave → 0 < twin.level from hcommand) hfree
      rw [performAll] at hfault ⊢
      by_cases hdone : (pen.perform command).fault = none
      · rw [Outcome.andThen_of_done hdone] at hfault ⊢
        -- Both pens go on alike, save for their sinks, and have written equally much.
        have hstate := state_perform hcommand hdone
        have hlevel : (pen.perform command).state.level = command.levelAfter pen.level := by
          rw [hstate]
        have hsame : { (pen.perform command).state with sink := (twin.perform command).state.sink }
            = (twin.perform command).state := by
          rw [hstate]
          exact (state_perform (show command = .leave → 0 < twin.level from hcommand) htwin).symm
        obtain ⟨own, hown, hposition⟩ := ih (hlevel ▸ hothers) hfault hunlimited
        refine ⟨Text.encode (pen.inkOf command) ++ own, ?_, ?_⟩
        · rw [← List.append_assoc, ← hwrote.written_of_done hdone]
          exact hown
        · rw [hsame, hsize, Nat.add_assoc, ← List.length_append] at hposition
          refine (levelWriting?_of_le ?_ htwin).trans hposition
          rw [hsize, List.length_append]
          exact Nat.add_le_add_left (Nat.le_add_right _ _) _
      · rw [Outcome.andThen_of_stopped hdone]
        -- The twin writes the whole of what this command has to write, and so the next byte.
        have hlevel := level_perform pen command
        rw [if_neg hdone] at hlevel
        obtain ⟨own, -, hless, hown⟩ := hwrote.exists_of_fault hdone
        refine ⟨own, hown, ?_⟩
        rw [hlevel]
        refine levelWriting?_of_lt ?_
        rw [hsize]
        exact Nat.add_lt_add_left hless _

end Pen

end JavaResources
