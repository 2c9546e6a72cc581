import JavaResources.Sink
import Mathlib.Data.List.Basic

/-!
# What a sink takes of a buffer

However a sink cuts a buffer into calls, and whichever of them it interrupts, `Sink.writeAll` stores
the bytes there is room for and refuses the first one beyond. `writeAll_eq` says so in closed form.
Nothing in it depends on the calls, so `writeAll_append` may cut a buffer anywhere.
-/

namespace JavaResources.Sink

/-- The number of bytes a sink takes before it refuses, without bound when absent. A sink whose
calls take nothing has room for none. -/
def capacity (sink : Sink) : Option Nat :=
  if sink.chunk = some 0 then some 0 else sink.space

/-- The number of bytes a sink takes of a buffer. -/
def intake (sink : Sink) (offered : Nat) : Nat :=
  bounded sink.capacity offered

/-- A sink that refuses nothing. -/
def Unlimited (sink : Sink) : Prop :=
  sink.capacity = none

instance (sink : Sink) : Decidable sink.Unlimited :=
  inferInstanceAs (Decidable (_ = _))

theorem intake_le (sink : Sink) (offered : Nat) : sink.intake offered ≤ offered := by
  unfold intake
  cases sink.capacity <;> simp only [bounded] <;> omega

theorem intake_of_unlimited {sink : Sink} (h : sink.Unlimited) (offered : Nat) :
    sink.intake offered = offered := by
  rw [intake, h]
  rfl

/-- A sink takes as much of a shorter buffer as of a longer one, if the shorter one has it. -/
theorem intake_of_le (sink : Sink) {shorter longer : Nat} (h : shorter ≤ longer) :
    sink.intake shorter = min shorter (sink.intake longer) := by
  unfold intake
  cases sink.capacity <;> simp only [bounded] <;> omega

/-- Only the space of a sink changes when it accepts bytes. -/
theorem capacity_accept (sink : Sink) (count : Nat) (bytes : List UInt8) :
    (sink.accept count bytes).capacity = sink.capacity.map (· - count) := by
  by_cases hchunk : sink.chunk = some 0 <;> simp [capacity, accept, hchunk]

/-- Accepting bytes in two goes is accepting them in one. -/
theorem accept_accept (sink : Sink) (first second : Nat) (bytes : List UInt8) :
    (sink.accept first bytes).accept second (bytes.drop first)
      = sink.accept (first + second) bytes := by
  simp only [accept, List.take_add, List.foldl_append, Option.map_map]
  congr
  funext space
  exact Nat.sub_sub space first second

/-- Bytes beyond the accepted number make no difference. -/
theorem accept_append (sink : Sink) {count : Nat} {first : List UInt8} (second : List UInt8)
    (hcount : count ≤ first.length) :
    sink.accept count (first ++ second) = sink.accept count first := by
  simp only [accept, List.take_append_of_le_length hcount]

/-- What is left of a buffer is taken as if the whole had been offered at once. -/
theorem intake_accept {sink : Sink} {count offered : Nat} (bytes : List UInt8)
    (hcount : count ≤ sink.intake offered) :
    count + (sink.accept count bytes).intake (offered - count) = sink.intake offered := by
  have hle := intake_le sink offered
  unfold intake at hcount hle ⊢
  rw [capacity_accept]
  cases hcapacity : sink.capacity with
  | none =>
      rw [hcapacity] at hcount hle
      simp only [Option.map_none, bounded] at hcount ⊢
      omega
  | some most =>
      rw [hcapacity] at hcount hle
      simp only [Option.map_some, bounded] at hcount ⊢
      omega

/-- One call takes no more than the sink takes of the buffer. -/
theorem room_le_intake (sink : Sink) (offered : Nat) : sink.room offered ≤ sink.intake offered := by
  unfold room intake capacity
  rcases sink.chunk with _ | _ | chunk <;> cases sink.space <;>
    simp only [bounded, reduceCtorEq, Option.some.injEq, Nat.add_one_ne_zero, if_true, if_false] <;>
    omega

/-- A sink that takes nothing of a buffer in one call takes nothing of it at all. -/
theorem intake_eq_zero {sink : Sink} {offered : Nat} (hroom : sink.room offered = 0) :
    sink.intake offered = 0 := by
  revert hroom
  unfold room intake capacity
  rcases sink.chunk with _ | _ | chunk <;> cases sink.space <;>
    simp only [bounded, reduceCtorEq, Option.some.injEq, Nat.add_one_ne_zero, if_true, if_false] <;>
    omega

/-- What one call can do: pass without effect, take at least one byte, or refuse for want of room.
-/
theorem offer_cases (sink : Sink) (bytes : List UInt8) :
    sink.offer bytes = (.interrupted, { sink with interruptNext := false }) ∨
    (0 < sink.room bytes.length ∧
      sink.offer bytes =
        (.took (sink.room bytes.length), sink.accept (sink.room bytes.length) bytes)) ∨
    (sink.room bytes.length = 0 ∧
      sink.offer bytes = (.refused, { sink with interruptNext := true })) := by
  unfold offer
  split
  · exact .inl rfl
  · cases hroom : sink.room bytes.length with
    | zero => exact .inr (.inr ⟨rfl, rfl⟩)
    | succ count => exact .inr (.inl ⟨Nat.succ_pos count, rfl⟩)

section Offer

variable {sink after : Sink} {bytes : List UInt8}

/-- An interrupted call changes only whether the next one is interrupted. -/
theorem eq_of_interrupted (h : sink.offer bytes = (.interrupted, after)) :
    after = { sink with interruptNext := false } := by
  obtain hcase | ⟨_, hcase⟩ | ⟨_, hcase⟩ := offer_cases sink bytes
  · exact congrArg Prod.snd (h.symm.trans hcase)
  · exact nomatch congrArg Prod.fst (h.symm.trans hcase)
  · exact nomatch congrArg Prod.fst (h.symm.trans hcase)

/-- A call that takes bytes takes as many as it has room for. -/
theorem eq_of_took {count : Nat} (h : sink.offer bytes = (.took count, after)) :
    count = sink.room bytes.length ∧ after = sink.accept count bytes := by
  obtain hcase | ⟨_, hcase⟩ | ⟨_, hcase⟩ := offer_cases sink bytes
  · exact nomatch congrArg Prod.fst (h.symm.trans hcase)
  · obtain rfl : count = sink.room bytes.length :=
      Reply.took.inj (congrArg Prod.fst (h.symm.trans hcase))
    exact ⟨rfl, congrArg Prod.snd (h.symm.trans hcase)⟩
  · exact nomatch congrArg Prod.fst (h.symm.trans hcase)

/-- A refusal is for want of room. -/
theorem eq_of_refused (h : sink.offer bytes = (.refused, after)) :
    sink.room bytes.length = 0 ∧ after = { sink with interruptNext := true } := by
  obtain hcase | ⟨_, hcase⟩ | ⟨hroom, hcase⟩ := offer_cases sink bytes
  · exact nomatch congrArg Prod.fst (h.symm.trans hcase)
  · exact nomatch congrArg Prod.fst (h.symm.trans hcase)
  · exact ⟨hroom, congrArg Prod.snd (h.symm.trans hcase)⟩

end Offer

/-- A buffer is written as far as the sink takes it, and it is an error if that is not the whole of
it. -/
theorem writeAll_eq (sink : Sink) {bytes : List UInt8} (hbytes : bytes ≠ []) :
    sink.writeAll bytes =
      ⟨sink.accept (sink.intake bytes.length) bytes,
        if sink.intake bytes.length = bytes.length then none else some sink.refusal.error⟩ := by
  fun_induction writeAll sink bytes with
  | case1 => contradiction
  | case2 sink bytes _ after hoffer _ ih =>
      obtain rfl := eq_of_interrupted hoffer
      exact ih hbytes
  | case3 sink bytes _ count after hoffer htook ih =>
      obtain ⟨rfl, rfl⟩ := eq_of_took hoffer
      have hrest := intake_accept bytes (room_le_intake sink bytes.length)
      have hle := intake_le sink bytes.length
      -- The empty buffer needs no call, so it cannot be refused by a sink that is full.
      by_cases hdrop : bytes.drop (sink.room bytes.length) = []
      · have hroom : sink.room bytes.length = bytes.length := by
          have := List.drop_eq_nil_iff.1 hdrop
          omega
        have hintake : sink.intake bytes.length = bytes.length := by omega
        rw [hdrop, writeAll, if_pos rfl, if_pos hintake, hintake, hroom]
        rfl
      · rw [ih hdrop, accept_accept, List.length_drop, hrest]
        congr 2
        exact propext ⟨fun h => by omega, fun h => by omega⟩
  | case4 sink bytes _ after hoffer =>
      obtain ⟨hroom, rfl⟩ := eq_of_refused hoffer
      have hlength : 0 ≠ bytes.length := fun h => hbytes (List.length_eq_zero_iff.1 h.symm)
      rw [intake_eq_zero hroom, if_neg hlength]
      simp [Outcome.stopped, accept]

/-- The sink has what it takes of a buffer behind what it had. -/
theorem written_writeAll (sink : Sink) (bytes : List UInt8) :
    (sink.writeAll bytes).state.written.toList
      = sink.written.toList ++ bytes.take (sink.intake bytes.length) := by
  by_cases hbytes : bytes = []
  · rw [hbytes, List.take_nil, List.append_nil, writeAll, if_pos rfl]
    rfl
  · rw [writeAll_eq sink hbytes, toList_written_accept]

/-- Writing fails exactly if the sink does not take the whole buffer. -/
theorem fault_writeAll (sink : Sink) (bytes : List UInt8) :
    (sink.writeAll bytes).fault
      = if sink.intake bytes.length = bytes.length then none else some sink.refusal.error := by
  by_cases hbytes : bytes = []
  · have hnone : sink.intake bytes.length = bytes.length := by
      have := sink.intake_le bytes.length
      rw [hbytes] at this ⊢
      exact Nat.le_zero.1 this
    rw [if_pos hnone, hbytes, writeAll, if_pos rfl]
    rfl
  · rw [writeAll_eq sink hbytes]

/-- Writing one buffer and then another is writing both as one buffer. -/
theorem writeAll_append (sink : Sink) (first second : List UInt8) :
    sink.writeAll (first ++ second) = (sink.writeAll first).andThen (·.writeAll second) := by
  by_cases hfirst : first = []
  · subst hfirst
    rw [writeAll.eq_1 sink [], if_pos rfl]
    rfl
  by_cases hsecond : second = []
  · subst hsecond
    have hnil : (fun sink : Sink => sink.writeAll []) = Outcome.done := by
      funext sink
      rw [writeAll, if_pos rfl]
    rw [List.append_nil, hnil, Outcome.andThen_done]
  have hboth := List.append_ne_nil_of_left_ne_nil hfirst second
  have hlength : (first ++ second).length = first.length + second.length := List.length_append
  have hshare := sink.intake_of_le (hlength ▸ Nat.le_add_right _ _ :
    first.length ≤ (first ++ second).length)
  have hle := sink.intake_le (first ++ second).length
  rw [writeAll_eq sink hfirst, writeAll_eq sink hboth]
  -- The second buffer is offered only if the sink has taken the whole of the first.
  by_cases hfits : sink.intake first.length = first.length
  · have htaken : sink.accept first.length (first ++ second) = sink.accept first.length first :=
      sink.accept_append second (Nat.le_refl _)
    have hrest := intake_accept (first ++ second)
      (by omega : first.length ≤ sink.intake (first ++ second).length)
    rw [htaken, hlength, Nat.add_sub_cancel_left] at hrest
    have hdrop : (first ++ second).drop first.length = second := List.drop_left
    rw [hlength, if_pos hfits, hfits, ← hrest, ← accept_accept, htaken, hdrop]
    simp only [Outcome.andThen, writeAll_eq _ hsecond, Nat.add_left_cancel_iff]
    rfl
  · have hshort : sink.intake (first ++ second).length = sink.intake first.length := by omega
    have hless := sink.intake_le first.length
    rw [hshort, if_neg hfits, if_neg (by omega), accept_append sink second hless]
    rfl

end JavaResources.Sink
