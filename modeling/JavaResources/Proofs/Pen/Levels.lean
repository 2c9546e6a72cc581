import JavaResources.Pen.Command
import JavaResources.Proofs.Pen.Ink

/-!
# Commands as strokes

A list of commands draws the characters of its texts, each at the level that the commands before it
have reached. `performAll_eq` says that carrying out commands that never leave a level they have not
entered is drawing those strokes, and `performAll_wrote` that their ink is what reaches the sink. A
list of commands is `Closed` if it comes back to the level it started from without ever going below;
its strokes at one level are those at any other, shifted.
-/

namespace JavaResources

namespace Command

/-- The level after a command. -/
def levelAfter (level : Nat) : Command → Nat
  | .enter => level + 1
  | .leave => level - 1
  | .put _ | .putLine _ | .endLine => level

/-- The text of a command. -/
def text : Command → List Char
  | .put text => text.toList
  | .putLine text => text.toList ++ ['\n']
  | .endLine => ['\n']
  | .enter | .leave => []

/-- The level after commands. -/
def levelAfterAll (level : Nat) (commands : List Command) : Nat :=
  commands.foldl levelAfter level

/-- The strokes of commands that are carried out from a level on. -/
def strokesAll : Nat → List Command → List Stroke
  | _, [] => []
  | level, command :: others =>
    Stroke.ofText level command.text ++ strokesAll (command.levelAfter level) others

/-- The commands never leave level zero. -/
def Permitted : Nat → List Command → Prop
  | _, [] => True
  | level, command :: others =>
    (command = .leave → 0 < level) ∧ Permitted (command.levelAfter level) others

instance Permitted.decide : (level : Nat) → (commands : List Command) →
    Decidable (Permitted level commands)
  | _, [] => .isTrue trivial
  | level, command :: others =>
    have := Permitted.decide (command.levelAfter level) others
    inferInstanceAs (Decidable (_ ∧ _))

theorem levelAfterAll_append (level : Nat) (first second : List Command) :
    levelAfterAll level (first ++ second) = levelAfterAll (levelAfterAll level first) second :=
  List.foldl_append

theorem strokesAll_append (level : Nat) (first second : List Command) :
    strokesAll level (first ++ second)
      = strokesAll level first ++ strokesAll (levelAfterAll level first) second := by
  induction first generalizing level with
  | nil => rfl
  | cons command others ih =>
      simp only [List.cons_append, strokesAll, ih, List.append_assoc]
      rfl

theorem permitted_append {level : Nat} {first second : List Command} :
    Permitted level (first ++ second)
      ↔ Permitted level first ∧ Permitted (levelAfterAll level first) second := by
  induction first generalizing level with
  | nil => exact ⟨fun h => ⟨trivial, h⟩, fun h => h.2⟩
  | cons command others ih =>
      simp only [List.cons_append, Permitted, ih, and_assoc]
      rfl

end Command

namespace Pen

/-! ## Carrying out commands -/

/-- Drawing a text at the level of the pen leaves the pen at that level. -/
theorem drawAll_ofText (text : List Char) (pen : Pen) :
    drawAll (Stroke.ofText pen.level text) pen
      = (drawAll (Stroke.ofText pen.level text) pen).andThen fun drawn =>
          .done (drawn.atLevel pen.level) := by
  induction text generalizing pen with
  | nil => rfl
  | cons c rest ih =>
      show (pen.draw ⟨pen.level, c⟩).andThen (drawAll (Stroke.ofText pen.level rest))
        = ((pen.draw ⟨pen.level, c⟩).andThen (drawAll (Stroke.ofText pen.level rest))).andThen _
      rw [Outcome.andThen_assoc]
      refine Outcome.andThen_congr fun hdrawn => ?_
      have hrest := ih (pen.draw ⟨pen.level, c⟩).state
      rw [state_draw hdrawn] at hrest
      exact state_draw hdrawn ▸ hrest

/-- Ending the line is drawing a line feed. -/
theorem drawAll_lineFeed (level : Nat) (pen : Pen) :
    drawAll (Stroke.ofText level ['\n']) pen = (pen.atLevel level).endLine :=
  Outcome.andThen_done _

/-- The level a pen is at does not matter to strokes, which have levels of their own. -/
theorem drawAll_atLevel (strokes : List Stroke) (pen : Pen) (level final : Nat) :
    ((drawAll strokes (pen.atLevel level)).andThen fun drawn => .done (drawn.atLevel final))
      = (drawAll strokes pen).andThen fun drawn => .done (drawn.atLevel final) := by
  cases strokes with
  | nil => rfl
  | cons stroke others => rfl

/-- A command draws its strokes and leaves the pen at the level that it reaches. -/
theorem perform_eq {command : Command} {pen : Pen} (h : command = .leave → 0 < pen.level) :
    pen.perform command
      = (drawAll (Stroke.ofText pen.level command.text) pen).andThen fun drawn =>
          .done (drawn.atLevel (command.levelAfter pen.level)) := by
  cases command with
  | put text =>
      rw [perform, put_eq]
      exact drawAll_ofText text.toList pen
  | putLine text =>
      have hline : pen.perform (.putLine text)
          = drawAll (Stroke.ofText pen.level (text.toList ++ ['\n'])) pen := by
        rw [Stroke.ofText_append, drawAll_append]
        calc pen.perform (.putLine text)
          _ = (drawAll (Stroke.ofText pen.level text.toList) pen).andThen endLine := by
            rw [perform, putLine, put_eq]
          _ = (drawAll (Stroke.ofText pen.level text.toList) pen).andThen fun drawn =>
              (drawn.atLevel pen.level).endLine := by
            rw [drawAll_ofText, Outcome.andThen_assoc, Outcome.andThen_assoc]
            rfl
          _ = _ := Outcome.andThen_congr fun drawn => (drawAll_lineFeed pen.level _).symm
      rw [hline]
      exact drawAll_ofText (text.toList ++ ['\n']) pen
  | endLine =>
      have hline : pen.perform .endLine = drawAll (Stroke.ofText pen.level ['\n']) pen :=
        (drawAll_lineFeed pen.level pen).symm
      rw [hline]
      exact drawAll_ofText ['\n'] pen
  | enter => rfl
  | leave =>
      obtain ⟨indentation, level, owesIndent, sink⟩ := pen
      cases level with
      | zero => exact absurd (h rfl) (Nat.lt_irrefl 0)
      | succ level => rfl

/-- Commands draw their strokes and leave the pen at the level that they reach. -/
theorem performAll_eq {commands : List Command} {pen : Pen}
    (h : Command.Permitted pen.level commands) :
    performAll commands pen
      = (drawAll (Command.strokesAll pen.level commands) pen).andThen fun drawn =>
          .done (drawn.atLevel (Command.levelAfterAll pen.level commands)) := by
  induction commands generalizing pen with
  | nil => rfl
  | cons command others ih =>
      obtain ⟨hcommand, hothers⟩ := h
      rw [performAll, perform_eq hcommand, Command.strokesAll, drawAll_append,
        Outcome.andThen_assoc, Outcome.andThen_assoc]
      refine Outcome.andThen_congr fun _ => ?_
      rw [Outcome.done_andThen, ih hothers]
      exact drawAll_atLevel _ _ _ _

/-- The ink of commands is what they write on the sink of the pen. -/
theorem performAll_wrote {commands : List Command} {pen : Pen}
    (h : Command.Permitted pen.level commands) :
    Wrote pen.sink
      (Stroke.ink pen.indentation pen.owesIndent (Command.strokesAll pen.level commands))
      (performAll commands pen) := by
  rw [performAll_eq h]
  exact (drawAll_wrote _ pen).andThen_done (·.atLevel _) fun _ => rfl

end Pen

/-! ## Closed commands -/

/-- The strokes a number of levels deeper. -/
def Stroke.deepen (levels : Nat) (strokes : List Stroke) : List Stroke :=
  strokes.map fun stroke => ⟨stroke.level + levels, stroke.char⟩

theorem Stroke.deepen_ofText (levels level : Nat) (text : List Char) :
    deepen levels (ofText level text) = ofText (level + levels) text := by
  simp [ofText, deepen]

theorem Stroke.deepen_append (levels : Nat) (first second : List Stroke) :
    deepen levels (first ++ second) = deepen levels first ++ deepen levels second :=
  List.map_append

namespace Command

/-- Permitted commands do the same some levels deeper. -/
theorem Permitted.deepen {level : Nat} {commands : List Command} (h : Permitted level commands)
    (levels : Nat) :
    Permitted (level + levels) commands ∧
      levelAfterAll (level + levels) commands = levelAfterAll level commands + levels ∧
      strokesAll (level + levels) commands = Stroke.deepen levels (strokesAll level commands) := by
  induction commands generalizing level with
  | nil => exact ⟨trivial, rfl, rfl⟩
  | cons command others ih =>
      obtain ⟨hcommand, hothers⟩ := h
      -- Leaving is the one command that could stop short, at level zero, where it is not permitted.
      have hlevel : command.levelAfter (level + levels) = command.levelAfter level + levels := by
        cases command with
        | leave =>
            have := hcommand rfl
            simp only [levelAfter]
            omega
        | enter => exact Nat.add_right_comm level levels 1
        | put | putLine | endLine => rfl
      obtain ⟨hpermitted, hafter, hrest⟩ := ih hothers
      refine ⟨⟨fun h => Nat.lt_of_lt_of_le (hcommand h) (Nat.le_add_right _ _), ?_⟩, ?_, ?_⟩
      · rw [hlevel]
        exact hpermitted
      · show levelAfterAll (command.levelAfter (level + levels)) others = _
        rw [hlevel, hafter]
        rfl
      · rw [strokesAll, strokesAll, hlevel, hrest, ← Stroke.deepen_ofText, Stroke.deepen_append]

/-- The command writes text, an empty one or a line feed included, and stays at its level. -/
def writesText : Command → Bool
  | .put _ | .putLine _ | .endLine => true
  | .enter | .leave => false

theorem levelAfter_of_writesText {command : Command} (h : command.writesText = true)
    (level : Nat) : command.levelAfter level = level := by
  cases command with
  | enter | leave => contradiction
  | put | putLine | endLine => rfl

/-- Commands that only write text draw it at one level. -/
theorem strokesAll_of_writesText {commands : List Command} (h : commands.all writesText = true)
    (level : Nat) : strokesAll level commands = Stroke.ofText level (commands.flatMap text) := by
  induction commands with
  | nil => rfl
  | cons command others ih =>
      rw [List.all_cons, Bool.and_eq_true] at h
      rw [strokesAll, levelAfter_of_writesText h.1, ih h.2, List.flatMap_cons,
        Stroke.ofText_append]

/-- Commands that come back to their level and never go below it. -/
structure Closed (commands : List Command) : Prop where
  permitted : Permitted 0 commands
  level : levelAfterAll 0 commands = 0

namespace Closed

variable {commands more : List Command}

theorem permitted_at (h : Closed commands) (level : Nat) : Permitted level commands := by
  simpa using (h.permitted.deepen level).1

theorem levelAfterAll_eq (h : Closed commands) (level : Nat) :
    levelAfterAll level commands = level := by
  simpa [h.level] using (h.permitted.deepen level).2.1

theorem strokesAll_eq (h : Closed commands) (level : Nat) :
    strokesAll level commands = Stroke.deepen level (strokesAll 0 commands) := by
  simpa using (h.permitted.deepen level).2.2

theorem append (h : Closed commands) (hmore : Closed more) : Closed (commands ++ more) where
  permitted := permitted_append.2 ⟨h.permitted, h.level.symm ▸ hmore.permitted⟩
  level := by rw [levelAfterAll_append, h.level, hmore.level]

/-- Commands that only write text are closed. -/
theorem of_writesText (h : commands.all writesText = true) : Closed commands := by
  induction commands with
  | nil => exact ⟨trivial, rfl⟩
  | cons command others ih =>
      rw [List.all_cons, Bool.and_eq_true] at h
      obtain ⟨hcommand, hothers⟩ := h
      obtain ⟨hpermitted, hlevel⟩ := ih hothers
      refine ⟨⟨fun hleave => by subst hleave; contradiction, ?_⟩, ?_⟩
      · rw [levelAfter_of_writesText hcommand]
        exact hpermitted
      · show levelAfterAll (command.levelAfter 0) others = 0
        rw [levelAfter_of_writesText hcommand]
        exact hlevel

/-- Closed commands are closed between entering a level and leaving it. -/
theorem scope (h : Closed commands) : Closed (.enter :: commands ++ [.leave]) where
  permitted := by
    refine permitted_append.2 ⟨⟨fun hleave => (nomatch hleave), h.permitted_at 1⟩, ?_⟩
    show Permitted (levelAfterAll 1 commands) [.leave]
    rw [h.levelAfterAll_eq]
    exact ⟨fun _ => Nat.one_pos, trivial⟩
  level := by
    show levelAfterAll 1 (commands ++ [.leave]) = 0
    rw [levelAfterAll_append, h.levelAfterAll_eq]
    rfl

/-- A head, a closed body between entering a level and leaving it, and an end are closed. -/
theorem of_scope {head last : List Command} (hhead : head.all writesText = true)
    (h : Closed commands) (hlast : last.all writesText = true) :
    Closed (head ++ .enter :: commands ++ .leave :: last) := by
  simpa using (of_writesText hhead).append (h.scope.append (.of_writesText hlast))

end Closed

end Command

end JavaResources
