import JavaResources.Pen

/-!
# Lists of commands

What is to be written is a list of commands, which says nothing about the pen or the sink it will
meet. `Pen.performAll` carries out the commands in order and stops at the first fault.
-/

namespace JavaResources

/-- One operation of a pen. -/
inductive Command where
  | put (text : String)
  | putLine (text : String)
  | endLine
  | enter
  | leave
  deriving DecidableEq, Repr

namespace Pen

/-- Carry out one command. -/
def perform (pen : Pen) : Command → Outcome Fault Pen
  | .put text => pen.put text
  | .putLine text => pen.putLine text
  | .endLine => pen.endLine
  | .enter => .done pen.enter
  | .leave => pen.leave

/-- Carry out commands in order until one is stopped by a fault. -/
def performAll : List Command → Pen → Outcome Fault Pen
  | [], pen => .done pen
  | command :: others, pen => (pen.perform command).andThen (performAll others)

end Pen

end JavaResources
