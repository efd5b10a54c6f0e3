namespace result

variable {E A B : Type}

@[simp] theorem ok_bind (a : A) (f : A → Except E B) : (Except.ok a >>= f) = f a := rfl

@[simp] theorem error_bind (e : E) (f : A → Except E B) :
    (Except.error e >>= f) = Except.error e := rfl

/-- A computation in two parts returns when both parts do. Runs of the code are
    taken apart by this, call after call. -/
theorem bind_eq_ok_iff {x : Except E A} {f : A → Except E B} {b : B} :
    (x >>= f) = .ok b ↔ ∃ a, x = .ok a ∧ f a = .ok b := by
  cases x <;> simp

/-- A mapped result comes from a result that has been mapped. -/
theorem map_eq_ok_iff {x : Except E A} {f : A → B} {b : B} :
    f <$> x = .ok b ↔ ∃ a, x = .ok a ∧ f a = b := by
  cases x <;> simp [Functor.map, Except.map]

@[simp] theorem map_ok (f : A → B) (a : A) : f <$> (Except.ok a : Except E A) = .ok (f a) := rfl

@[simp] theorem map_error (f : A → B) (e : E) :
    f <$> (Except.error e : Except E A) = .error e := rfl

end result
