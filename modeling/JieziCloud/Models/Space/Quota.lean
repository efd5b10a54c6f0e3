import JieziCloud.Models.Space
import Mathlib.Logic.Relation

open chrono jiezi_cloud_core.types machine result

namespace jiezi_cloud_core.models.space

/-- What happens to the storage of a space. -/
inductive Change where
  | upload (size : UInt64)
  | removal (size : UInt64)
  | set_quota (quota : UInt64)

namespace Space

variable {Utc : Type}

/-- An upload is admitted when the quota has room for it, or there is none. -/
def admits (self : Space Utc) (size : UInt64) : Bool :=
  match self.remaining_quota with
  | none => true
  | some remaining => size ≤ remaining

/-- A refused upload leaves the space as it is. -/
def apply (self : Space Utc) : Change → Except Panic (Space Utc)
  | .upload size =>
    if self.admits size then do
      let storage_used ← u64_add self.storage_used size
      .ok { self with storage_used }
    else .ok self
  | .removal size => .ok { self with storage_used := self.storage_used - size }
  | .set_quota quota => .ok { self with storage_quota := some quota }

/-- Only what is stored can be removed. -/
def Allows (self : Space Utc) : Change → Prop
  | .removal size => size ≤ self.storage_used
  | _ => True

def Step (self other : Space Utc) : Prop :=
  ∃ change, self.Allows change ∧ self.apply change = .ok other

/-- The spaces that any sequence of changes leads to. -/
def Reaches : Space Utc → Space Utc → Prop := Relation.ReflTransGen Step

/-- The two quota functions draw one boundary: admission is exact, and an
    exceeded quota admits nothing. -/
theorem admits_iff {self : Space Utc} {quota : UInt64} (hquota : self.storage_quota = some quota)
    {size : UInt64} (hsize : 1 ≤ size.toNat) :
    self.admits size = true ↔ self.storage_used.toNat + size.toNat ≤ quota.toNat := by
  obtain ⟨remaining, hremaining, hvalue⟩ := remaining_quota_spec hquota
  simp only [admits, hremaining, decide_eq_true_eq, UInt64.le_iff_toNat_le, hvalue]
  omega

/-- What has been admitted can be added to the usage, since the sum is within the
    quota, which is a 64-bit number. -/
theorem u64_add_of_admits {self : Space Utc} {quota : UInt64}
    (hquota : self.storage_quota = some quota) {size : UInt64} (hadmits : self.admits size = true) :
    ∃ used, u64_add self.storage_used size = .ok used ∧
      used.toNat = self.storage_used.toNat + size.toNat := by
  apply u64_add_spec
  have hused := self.storage_used.toNat_lt
  have hquotaLt := quota.toNat_lt
  obtain hzero | hsome := Nat.eq_zero_or_pos size.toNat
  · omega
  · have hroom := (admits_iff hquota hsome).mp hadmits
    omega

theorem apply_upload_of_admits {self : Space Utc} {quota : UInt64}
    (hquota : self.storage_quota = some quota) {size : UInt64} (hadmits : self.admits size = true) :
    ∃ used, self.apply (.upload size) = .ok { self with storage_used := used } ∧
      used.toNat = self.storage_used.toNat + size.toNat := by
  obtain ⟨used, hadd, hused⟩ := u64_add_of_admits hquota hadmits
  refine ⟨used, ?_, hused⟩
  simp only [apply, hadmits, if_true, hadd, ok_bind]

/-- What a step can do: admit an upload, refuse one, remove, or set the quota.
    Only the first raises the usage, and only the last changes the quota. -/
theorem step_cases {self other : Space Utc} {quota : UInt64}
    (hquota : self.storage_quota = some quota) {change : Change} (hallows : self.Allows change)
    (happly : self.apply change = .ok other) :
    (∃ size, change = .upload size ∧ self.admits size = true ∧ other.storage_quota = some quota ∧
      other.storage_used.toNat = self.storage_used.toNat + size.toNat) ∨
    ((∃ size, change = .upload size) ∧ other = self) ∨
    ((∃ size, change = .removal size) ∧ other.storage_quota = some quota ∧
      other.storage_used.toNat ≤ self.storage_used.toNat) ∨
    (∃ next, change = .set_quota next ∧ other.storage_quota = some next ∧
      other.storage_used = self.storage_used) := by
  cases change with
  | upload size =>
    by_cases hadmits : self.admits size = true
    · obtain ⟨used, hupload, hused⟩ := apply_upload_of_admits hquota hadmits
      rw [hupload, Except.ok.injEq] at happly
      subst happly
      exact .inl ⟨size, rfl, hadmits, hquota, hused⟩
    · rw [apply, if_neg hadmits, Except.ok.injEq] at happly
      exact .inr (.inl ⟨⟨size, rfl⟩, happly.symm⟩)
  | removal size =>
    have hused : (self.storage_used - size).toNat ≤ self.storage_used.toNat := by
      rw [UInt64.toNat_sub_of_le _ _ hallows]
      omega
    simp only [apply, Except.ok.injEq] at happly
    subst happly
    exact .inr (.inr (.inl ⟨⟨size, rfl⟩, hquota, hused⟩))
  | set_quota next =>
    cases happly
    exact .inr (.inr (.inr ⟨next, rfl, rfl, rfl⟩))

/-- A space that has a quota keeps having one: no change takes it away. -/
theorem Reaches.storage_quota {start self : Space Utc} (h : start.Reaches self)
    (hstart : start.storage_quota.isSome = true) : ∃ quota, self.storage_quota = some quota := by
  induction h with
  | refl => exact Option.isSome_iff_exists.mp hstart
  | tail _ hstep ih =>
    obtain ⟨quota, hquota⟩ := ih
    obtain ⟨change, hallows, happly⟩ := hstep
    obtain ⟨_, _, _, hsame, _⟩ | ⟨_, rfl⟩ | ⟨_, hsame, _⟩ | ⟨next, _, hnext, _⟩ :=
      step_cases hquota hallows happly
    · exact ⟨quota, hsame⟩
    · exact ⟨quota, hquota⟩
    · exact ⟨quota, hsame⟩
    · exact ⟨next, hnext⟩

/-- No step but a change of the quota pushes a space over it: what is admitted
    fits, and nothing else raises the usage. -/
theorem set_quota_of_exceeds {self other : Space Utc} {quota : UInt64}
    (hquota : self.storage_quota = some quota) {change : Change} (hallows : self.Allows change)
    (happly : self.apply change = .ok other) (hwithin : self.is_quota_exceeded = false)
    (hexceeds : other.is_quota_exceeded = true) : ∃ next, change = .set_quota next := by
  have hle : self.storage_used.toNat ≤ quota.toNat := by
    rw [← Bool.not_eq_true, is_quota_exceeded_iff hquota] at hwithin
    omega
  obtain ⟨size, _, hadmits, hsame, hused⟩ | ⟨_, rfl⟩ | ⟨_, hsame, hused⟩ | ⟨next, hnext, _⟩ :=
    step_cases hquota hallows happly
  · rw [is_quota_exceeded_iff hsame] at hexceeds
    obtain hzero | hsome := Nat.eq_zero_or_pos size.toNat
    · omega
    · have hroom := (admits_iff hquota hsome).mp hadmits
      omega
  · rw [hwithin] at hexceeds
    cases hexceeds
  · rw [is_quota_exceeded_iff hsame] at hexceeds
    omega
  · exact ⟨next, hnext⟩

/-- Once the quota is exceeded, not a single byte more is admitted. -/
theorem not_admits_of_exceeded {self : Space Utc} {quota : UInt64}
    (hquota : self.storage_quota = some quota) (hexceeded : self.is_quota_exceeded = true)
    {size : UInt64} (hsize : 1 ≤ size.toNat) : ¬self.admits size = true := by
  rw [is_quota_exceeded_iff hquota] at hexceeded
  rw [admits_iff hquota hsize]
  omega

/-- A step that the exceeded condition does not clear. -/
def ExceededStep (self other : Space Utc) : Prop :=
  self.is_quota_exceeded = true ∧ self.Step other

/-- While the quota is exceeded, each step leaves the usage as it is or lowers it.
    Only empty uploads are admitted. -/
theorem ExceededStep.storage_used_le {self other : Space Utc} (h : self.ExceededStep other) :
    other.storage_used.toNat ≤ self.storage_used.toNat := by
  obtain ⟨hexceeded, change, hallows, happly⟩ := h
  obtain ⟨quota, hquota⟩ : ∃ quota, self.storage_quota = some quota := by
    cases hnone : self.storage_quota with
    | none => simp [is_quota_exceeded, hnone] at hexceeded
    | some quota => exact ⟨quota, rfl⟩
  obtain ⟨size, _, hadmits, _, hused⟩ | ⟨_, rfl⟩ | ⟨_, _, hused⟩ | ⟨_, _, _, hused⟩ :=
    step_cases hquota hallows happly
  · obtain hzero | hsome := Nat.eq_zero_or_pos size.toNat
    · omega
    · exact (not_admits_of_exceeded hquota hexceeded hsome hadmits).elim
  · exact Nat.le_refl _
  · exact hused
  · rw [hused]

/-- So the usage cannot grow over any number of such steps. -/
theorem storage_used_le_of_exceeded {self later : Space Utc}
    (h : Relation.ReflTransGen ExceededStep self later) :
    later.storage_used.toNat ≤ self.storage_used.toNat := by
  induction h with
  | refl => exact Nat.le_refl _
  | tail _ hstep ih => exact Nat.le_trans hstep.storage_used_le ih

/-- The two quota functions respect one quota: an admitted upload has room,
    admission is exact, the quota is exceeded when more than it is used, which
    only a change of the quota brings about, and an exceeded quota refuses
    uploads and lets the usage only shrink. -/
structure RespectsQuota (self : Space Utc) (quota : UInt64) : Prop where
  is_set : self.storage_quota = some quota
  has_room : ∀ size, self.admits size = true → ∃ used, u64_add self.storage_used size = .ok used
  admits_iff : ∀ size, 1 ≤ size.toNat →
    (self.admits size = true ↔ self.storage_used.toNat + size.toNat ≤ quota.toNat)
  exceeded_iff : self.is_quota_exceeded = true ↔ quota.toNat < self.storage_used.toNat
  exceeded_by : ∀ change other, self.Allows change → self.apply change = .ok other →
    self.is_quota_exceeded = false → other.is_quota_exceeded = true → ∃ next, change = .set_quota next
  refuses : self.is_quota_exceeded = true →
    ∀ size, 1 ≤ size.toNat → self.apply (.upload size) = .ok self
  shrinks : ∀ later, Relation.ReflTransGen ExceededStep self later →
    later.storage_used.toNat ≤ self.storage_used.toNat

/-- Whatever happens to a space with a quota, uploads, removals and changes of the
    quota in any order, it always respects the quota of the moment. -/
theorem Reaches.respectsQuota {start self : Space Utc} (hreaches : start.Reaches self)
    (hstart : start.storage_quota.isSome = true) : ∃ quota, self.RespectsQuota quota := by
  obtain ⟨quota, hquota⟩ := hreaches.storage_quota hstart
  have hroom : ∀ size, self.admits size = true → ∃ used, u64_add self.storage_used size = .ok used := by
    intro size hadmits
    obtain ⟨used, hadd, _⟩ := u64_add_of_admits hquota hadmits
    exact ⟨used, hadd⟩
  have hrefuses : self.is_quota_exceeded = true →
      ∀ size, 1 ≤ size.toNat → self.apply (.upload size) = .ok self := by
    intro hexceeded size hsize
    have hrefused := not_admits_of_exceeded hquota hexceeded hsize
    rw [apply, if_neg hrefused]
  refine ⟨quota, hquota, hroom, ?_, is_quota_exceeded_iff hquota, ?_, hrefuses, ?_⟩
  · intro size hsize
    exact Space.admits_iff hquota hsize
  · intro change other hallows happly
    exact set_quota_of_exceeds hquota hallows happly
  · intro later hlater
    exact storage_used_le_of_exceeded hlater

end Space

/-- A space that uses sixty of a hundred bytes. -/
def shared_space : Space FirstMinute where
  id := ⟨.repeated 1⟩
  name := "My Files"
  description := none
  owner_id := ⟨.repeated 2⟩
  root_id := ⟨.repeated 3⟩
  storage_quota := some 100
  storage_used := 60
  created_at := FirstMinute.second 0
  updated_at := FirstMinute.second 0

/-- The quota of the space has been lowered to less than it uses. -/
def lowered_space : Space FirstMinute := { shared_space with storage_quota := some 50 }

/-- The space respects the quota that it has been lowered to, although it uses
    more. -/
theorem lowered_space_respectsQuota : ∃ quota, lowered_space.RespectsQuota quota :=
  Space.Reaches.respectsQuota
    (show shared_space.Reaches lowered_space from .single ⟨.set_quota 50, trivial, rfl⟩) rfl

end jiezi_cloud_core.models.space
