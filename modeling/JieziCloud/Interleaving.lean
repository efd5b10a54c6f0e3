import JieziCloud.Result

open result

namespace interleaving

variable {State Input Output E : Type}

/-- The outputs of a program for some inputs, and the state it ends in. -/
def run (step : State → Input → Except E (Output × State)) :
    State → List Input → Except E (List Output × State)
  | state, [] => .ok ([], state)
  | state, input :: inputs => do
    let (output, next) ← step state input
    let (outputs, last) ← run step next inputs
    .ok (output :: outputs, last)

/-- A run between whose steps the state is changed from outside, any number of
    times. -/
inductive Changed (step : State → Input → Except E (Output × State)) (change : State → State → Prop) :
    State → List Input → List Output → State → Prop where
  | done (state : State) : Changed step change state [] [] state
  | change {state next last : State} {inputs : List Input} {outputs : List Output}
      (hchange : change state next) (hrest : Changed step change next inputs outputs last) :
      Changed step change state inputs outputs last
  | step {state next last : State} {input : Input} {output : Output} {inputs : List Input}
      {outputs : List Output} (hstep : step state input = .ok (output, next))
      (hrest : Changed step change next inputs outputs last) :
      Changed step change state (input :: inputs) (output :: outputs) last

/-- What changes from outside leave as it is, and what is all that the steps
    depend on. -/
structure Hides (step : State → Input → Except E (Output × State))
    (change same : State → State → Prop) : Prop where
  change : ∀ {state next other}, change state next → same state other → same next other
  step : ∀ {state next other input output}, step state input = .ok (output, next) →
    same state other → ∃ next', step other input = .ok (output, next') ∧ same next next'

variable {step : State → Input → Except E (Output × State)} {change same : State → State → Prop}

/-- A run of several inputs is the step of the first one, and the run of the
    others from the state that the step leaves. -/
theorem run_cons {state next last : State} {input : Input} {output : Output} {inputs : List Input}
    {outputs : List Output} (hstep : step state input = .ok (output, next))
    (hrest : run step next inputs = .ok (outputs, last)) :
    run step state (input :: inputs) = .ok (output :: outputs, last) := by
  simp only [run, hstep, hrest, ok_bind]

/-- Hidden changes do not show in the outputs of a run. -/
theorem Changed.run_eq (hhides : Hides step change same) {state last other : State}
    {inputs : List Input} {outputs : List Output} (h : Changed step change state inputs outputs last)
    (hsame : same state other) :
    ∃ last', run step other inputs = .ok (outputs, last') ∧ same last last' := by
  induction h generalizing other with
  | done state => exact ⟨other, rfl, hsame⟩
  | change hchange _ ih => exact ih (hhides.change hchange hsame)
  | step hstep _ ih =>
    obtain ⟨next', hstep', hnext⟩ := hhides.step hstep hsame
    obtain ⟨last', hrun, hlast⟩ := ih hnext
    exact ⟨last', run_cons hstep' hrun, hlast⟩

end interleaving
