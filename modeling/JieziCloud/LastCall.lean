namespace calls

variable {State Call A : Type}

/-- The argument of the last call that has one, as far as `argument` tells. -/
def last (argument : Call → Option A) (calls : List Call) : Option A :=
  (calls.filterMap argument).getLast?

/-- An earlier call only counts when no later one has an argument. -/
theorem last_cons (argument : Call → Option A) (call : Call) (calls : List Call) :
    last argument (call :: calls) = (last argument calls).or (argument call) := by
  unfold last
  cases hcall : argument call with
  | none => rw [List.filterMap_cons_none hcall, Option.or_none]
  | some a =>
    rw [List.filterMap_cons_some hcall, List.getLast?_cons]
    cases (calls.filterMap argument).getLast? <;> rfl

/-- There is no last argument exactly when none of the calls has one. -/
theorem last_eq_none_iff (argument : Call → Option A) (calls : List Call) :
    last argument calls = none ↔ ∀ call ∈ calls, argument call = none := by
  rw [last, List.getLast?_eq_none_iff, List.filterMap_eq_nil_iff]

/-- A register that every call either overwrites with its argument or leaves
    alone holds, after any calls, the last argument or its first content. -/
theorem read_foldl {step : State → Call → State} {read : State → Option A}
    {argument : Call → Option A}
    (hstep : ∀ state call, read (step state call) = (argument call).or (read state))
    (calls : List Call) (state : State) :
    read (calls.foldl step state) = (last argument calls).or (read state) := by
  induction calls generalizing state with
  | nil => rfl
  | cons call calls ih => rw [List.foldl_cons, ih, hstep, last_cons, Option.or_assoc]

end calls
