import JavaResources.IoError
import JavaResources.Outcome

/-!
# Byte sinks

A sink takes bytes a call at a time. It may have limited space, take only so many bytes in one call,
and let every other call be interrupted before it takes anything. `Sink.offer` is one call;
`Sink.writeAll` repeats it until every byte is taken or the sink refuses. A call that takes nothing
of a non-empty buffer is a refusal: the sink either names an error or claims success, and the latter
is reported as `IoError.writeZero`.
-/

namespace JavaResources

/-- What a sink does when it cannot take a byte: fail with an error, or claim to have taken zero. -/
inductive Sink.Refusal where
  | fail (error : IoError)
  | takeNothing
  deriving DecidableEq, Repr

/-- The error that writing a whole buffer ends with when the sink refuses. -/
def Sink.Refusal.error : Sink.Refusal → IoError
  | .fail error => error
  | .takeNothing => .writeZero

/-- A destination of bytes. `space` is the room that is left and `chunk` the most that one call
takes, both without bound when absent. A sink that `interrupts` lets every other call pass without
effect, and `interruptNext` says whether the next call is such a one. -/
structure Sink where
  written : Array UInt8 := #[]
  space : Option Nat := none
  chunk : Option Nat := none
  interrupts : Bool := false
  interruptNext : Bool := true
  refusal : Sink.Refusal := .fail ⟨.storageFull, "no space"⟩

namespace Sink

/-- The answer to one call. -/
inductive Reply where
  | interrupted
  | took (count : Nat)
  | refused

/-- The smaller of a number and a bound, where an absent bound is none at all. -/
def bounded (bound : Option Nat) (count : Nat) : Nat :=
  match bound with
  | none => count
  | some most => min most count

/-- How many of the offered bytes a call takes if it is not interrupted. -/
def room (sink : Sink) (offered : Nat) : Nat :=
  bounded sink.space (bounded sink.chunk offered)

/-- Store the first bytes of a buffer, and have that much less space. -/
def accept (sink : Sink) (count : Nat) (bytes : List UInt8) : Sink :=
  { sink with
    written := (bytes.take count).foldl Array.push sink.written
    space := sink.space.map (· - count)
    interruptNext := true }

/-- What is accepted comes behind what was written before. -/
@[simp]
theorem toList_written_accept (sink : Sink) (count : Nat) (bytes : List UInt8) :
    (sink.accept count bytes).written.toList = sink.written.toList ++ bytes.take count := by
  simp [accept]

/-- One call with a non-empty buffer. -/
def offer (sink : Sink) (bytes : List UInt8) : Reply × Sink :=
  if sink.interrupts && sink.interruptNext then
    (.interrupted, { sink with interruptNext := false })
  else
    match sink.room bytes.length with
    | 0 => (.refused, { sink with interruptNext := true })
    | count + 1 => (.took (count + 1), sink.accept (count + 1) bytes)

/-- An interrupted call leaves the next one uninterrupted. -/
theorem offer_interrupted {sink after : Sink} {bytes : List UInt8}
    (hoffer : sink.offer bytes = (.interrupted, after)) :
    sink.interruptNext = true ∧ after.interruptNext = false := by
  unfold offer at hoffer
  split at hoffer
  · next hnext =>
      simp only [Prod.mk.injEq, true_and] at hoffer
      exact ⟨by simp_all, hoffer ▸ rfl⟩
  · split at hoffer <;> simp at hoffer

/-- A call that takes bytes takes at least one and no more than it was offered. -/
theorem offer_took {sink after : Sink} {bytes : List UInt8} {count : Nat}
    (hoffer : sink.offer bytes = (.took count, after)) :
    0 < count ∧ count ≤ bytes.length := by
  unfold offer at hoffer
  split at hoffer
  · simp at hoffer
  · split at hoffer
    · simp at hoffer
    · next taken hroom =>
        simp only [Prod.mk.injEq, Reply.took.injEq] at hoffer
        have hbound : ∀ (bound : Option Nat) (n : Nat), bounded bound n ≤ n := by
          intro bound n
          cases bound <;> simp only [bounded] <;> omega
        have hle : sink.room bytes.length ≤ bytes.length :=
          Nat.le_trans (hbound _ _) (hbound _ _)
        omega

/-- Write every byte of a buffer. Interrupted calls are repeated, a call that took only a part is
followed by one with the rest, and a refusal ends the write. No call is made for an empty buffer. -/
def writeAll (sink : Sink) (bytes : List UInt8) : Outcome IoError Sink :=
  if bytes = [] then .done sink
  else
    match hoffer : sink.offer bytes with
    | (.interrupted, after) =>
      have := offer_interrupted hoffer
      after.writeAll bytes
    | (.took count, after) =>
      have := offer_took hoffer
      after.writeAll (bytes.drop count)
    | (.refused, after) => .stopped after after.refusal.error
termination_by 2 * bytes.length + sink.interruptNext.toNat
decreasing_by
  · simp [this]
  · have := Bool.toNat_le after.interruptNext
    simp only [List.length_drop]
    omega

/-- Give a sink of limited space more of it. -/
def grow (sink : Sink) (bytes : Nat) : Sink :=
  { sink with space := sink.space.map (· + bytes) }

end Sink

end JavaResources
