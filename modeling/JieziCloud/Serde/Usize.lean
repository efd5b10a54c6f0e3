import JieziCloud.Serde.Nesting

open json result

namespace serde

instance : Serialize USize :=
  ⟨fun n => .ok (.int (integer_of_nat n.toNat (by have := n.toNat_lt; omega)))⟩

/-- A number of the document that fits the word of the platform. -/
instance : Deserialize USize where
  deserialize
    | .num n =>
      if 0 ≤ n.val ∧ n.val < USize.size then .ok (USize.ofNat n.val.toNat)
      else .error (.invalid_value "usize")
    | _ => .error (.invalid_type "usize")

instance {R : Json → Json → Prop} [Disturbance R] : Survives R USize :=
  survives_of_scalar (fun _ => rfl) (fun _ => trivial) (fun n => by
    have hfits : 0 ≤ (n.toNat : Int) ∧ (n.toNat : Int) < USize.size := by
      refine ⟨by omega, ?_⟩
      exact_mod_cast n.toNat_lt_size
    simp only [deserialize, Data.to_json, integer_of_nat]
    rw [if_pos hfits, Int.toNat_natCast, USize.ofNat_toNat])

instance : Flat USize := flat_of_scalar (fun _ => rfl) (fun _ => trivial)

end serde
