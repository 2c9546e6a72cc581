/-!
# Steps that keep their state

A step on a sink or a pen may stop early, and what it did before it stopped stays done. An
`Outcome` therefore always carries the state that the step left behind, and beside it the fault that
stopped it, if any. `Outcome.andThen` goes on to the next step unless a fault stopped the first one.
-/

namespace JavaResources

/-- The state a step left behind, with the fault that stopped it, if any. -/
structure Outcome (ε σ : Type) where
  state : σ
  fault : Option ε := none

namespace Outcome

variable {ε δ σ τ : Type}

/-- A step that ran to its end. -/
def done (state : σ) : Outcome ε σ :=
  ⟨state, none⟩

/-- A step that was stopped by a fault. -/
def stopped (state : σ) (fault : ε) : Outcome ε σ :=
  ⟨state, some fault⟩

/-- Continue with the next step from the state left behind, unless a fault stopped the first. -/
def andThen (first : Outcome ε σ) (next : σ → Outcome ε σ) : Outcome ε σ :=
  match first.fault with
  | none => next first.state
  | some _ => first

/-- The same outcome seen from a larger state and with a wider kind of fault. -/
def lift (put : σ → τ) (widen : ε → δ) (outcome : Outcome ε σ) : Outcome δ τ :=
  ⟨put outcome.state, outcome.fault.map widen⟩

@[simp]
theorem done_andThen (state : σ) (next : σ → Outcome ε σ) :
    (done state).andThen next = next state := rfl

@[simp]
theorem stopped_andThen (state : σ) (fault : ε) (next : σ → Outcome ε σ) :
    (stopped state fault).andThen next = stopped state fault := rfl

@[simp]
theorem andThen_done (first : Outcome ε σ) : first.andThen done = first := by
  obtain ⟨state, _ | fault⟩ := first <;> rfl

/-- A step that ran to its end is followed by the next one. -/
theorem andThen_of_done {first : Outcome ε σ} {next : σ → Outcome ε σ}
    (h : first.fault = none) : first.andThen next = next first.state := by
  rw [andThen, h]

/-- A step that was stopped is followed by none. -/
theorem andThen_of_stopped {first : Outcome ε σ} {next : σ → Outcome ε σ}
    (h : first.fault ≠ none) : first.andThen next = first := by
  obtain ⟨state, _ | fault⟩ := first
  · exact absurd rfl h
  · rfl

/-- Three steps in a row may be grouped either way. -/
theorem andThen_assoc (first : Outcome ε σ) (second third : σ → Outcome ε σ) :
    (first.andThen second).andThen third
      = first.andThen fun state => (second state).andThen third := by
  obtain ⟨state, _ | fault⟩ := first <;> rfl

/-- What comes next matters only where the first step ran to its end. -/
theorem andThen_congr {first : Outcome ε σ} {next other : σ → Outcome ε σ}
    (h : first.fault = none → next first.state = other first.state) :
    first.andThen next = first.andThen other := by
  obtain ⟨state, _ | fault⟩ := first
  · exact h rfl
  · rfl

end Outcome

end JavaResources
