import JieziCloud.Machine
import JieziCloud.Serde.Nesting

open json machine serde

namespace jiezi_cloud_core.types

/-- Pagination parameters sent by the client. Pages are counted from one. -/
structure PageRequest where
  page : UInt32
  per_page : UInt32
  deriving DecidableEq

namespace PageRequest

/-- The SQL `OFFSET` for this page. -/
def offset (self : PageRequest) : Except Panic UInt64 :=
  u64_mul (u32_saturating_sub self.page 1).toUInt64 self.per_page.toUInt64

/-- The SQL `LIMIT`, the same as `per_page`. -/
def limit (self : PageRequest) : UInt64 := self.per_page.toUInt64

def derived : Struct PageRequest (UInt32 × UInt32 × Unit) where
  expected := "struct PageRequest"
  fields := .cons (field "page") <| .cons (field "per_page") .nil
  row :=
    { toFun self := (self.page, self.per_page, ())
      invFun := fun (page, per_page, ()) => { page, per_page } }

instance : Serialize PageRequest := ⟨derived.serialize⟩

instance : Deserialize PageRequest where
  deserialize := derived.deserialize

instance {R : Json → Json → Prop} [Disturbance R] : Survives R PageRequest where
  survives := derived.survives (by decide) ⟨survive_field _, survive_field _, trivial⟩ rfl

/-- Even the end of the last window has room in a `u64`. -/
theorem window_lt (self : PageRequest) :
    (self.page.toNat - 1) * self.per_page.toNat + self.per_page.toNat < 2 ^ 64 := by
  have hpage := self.page.toNat_lt
  have hper_page := self.per_page.toNat_lt
  calc
    (self.page.toNat - 1) * self.per_page.toNat + self.per_page.toNat =
        (self.page.toNat - 1 + 1) * self.per_page.toNat := by rw [Nat.add_mul, Nat.one_mul]
    _ ≤ 2 ^ 32 * self.per_page.toNat := Nat.mul_le_mul_right _ (by omega)
    _ < 2 ^ 32 * 2 ^ 32 := Nat.mul_lt_mul_of_pos_left hper_page (by decide)
    _ = 2 ^ 64 := by decide

/-- From page one on, the window ends where the pages up to this one end. -/
theorem window_end {self : PageRequest} (hpage : 1 ≤ self.page.toNat) :
    (self.page.toNat - 1) * self.per_page.toNat + self.per_page.toNat =
      self.page.toNat * self.per_page.toNat := by
  rw [← Nat.succ_mul, Nat.succ_eq_add_one, Nat.sub_add_cancel hpage]

/-- The offset is what the pages before this one hold, where page zero is taken
    for page one. -/
theorem offset_eq_ok_iff {self : PageRequest} {offset : UInt64} :
    self.offset = .ok offset ↔ offset.toNat = (self.page.toNat - 1) * self.per_page.toNat := by
  rw [PageRequest.offset, u64_mul_eq_ok_iff]
  simp

/-- The offset of every page has room in a `u64`. -/
theorem offset_spec (self : PageRequest) : ∃ offset, self.offset = .ok offset ∧
    offset.toNat = (self.page.toNat - 1) * self.per_page.toNat := by
  have hwindow := self.window_lt
  have hroom : (self.page.toNat - 1) * self.per_page.toNat < 2 ^ 64 := by omega
  refine ⟨UInt64.ofNat ((self.page.toNat - 1) * self.per_page.toNat), ?_, ?_⟩
  · rw [offset_eq_ok_iff, UInt64.toNat_ofNat_of_lt' hroom]
  · rw [UInt64.toNat_ofNat_of_lt' hroom]

@[simp] theorem limit_toNat (self : PageRequest) : self.limit.toNat = self.per_page.toNat :=
  UInt32.toNat_toUInt64 self.per_page

end PageRequest

/-- A page of results. `page` and `per_page` repeat those of the request. -/
structure PageResponse (T : Type) where
  items : List T
  total : UInt64
  page : UInt32
  per_page : UInt32

namespace PageResponse

variable {T : Type}

def new (items : List T) (total : UInt64) (page per_page : UInt32) : PageResponse T :=
  { items, total, page, per_page }

def total_pages (self : PageResponse T) : UInt64 :=
  if self.per_page = 0 then 0 else u64_div_ceil self.total self.per_page.toUInt64

def has_next (self : PageResponse T) : Bool := self.page.toUInt64 < self.total_pages

def derived (T : Type) [Serialize T] [Deserialize T] :
    Struct (PageResponse T) (List T × UInt64 × UInt32 × UInt32 × Unit) where
  expected := "struct PageResponse"
  fields := .cons (field "items") <| .cons (field "total") <| .cons (field "page") <|
    .cons (field "per_page") .nil
  row :=
    { toFun self := (self.items, self.total, self.page, self.per_page, ())
      invFun := fun (items, total, page, per_page, ()) => { items, total, page, per_page } }

instance [Serialize T] [Deserialize T] : Serialize (PageResponse T) := ⟨(derived T).serialize⟩

instance [Serialize T] [Deserialize T] : Deserialize (PageResponse T) where
  deserialize := (derived T).deserialize

instance {R : Json → Json → Prop} [Disturbance R] [Serialize T] [Deserialize T] [Survives R T] :
    Survives R (PageResponse T) where
  survives := (derived T).survives (of_decide_eq_true rfl) ⟨survive_field _, survive_field _,
    survive_field _, survive_field _, trivial⟩ rfl

/-- The number of pages is the exact quotient rounded up, at every total that a
    listing can have. -/
theorem total_pages_toNat (self : PageResponse T) (h : 0 < self.per_page.toNat) :
    self.total_pages.toNat = (self.total.toNat + self.per_page.toNat - 1) / self.per_page.toNat := by
  have hper_page : self.per_page ≠ 0 := by
    intro hzero
    rw [hzero] at h
    exact absurd h (by decide)
  rw [total_pages, if_neg hper_page, u64_div_ceil_toNat _ _ (by simpa using h),
    UInt32.toNat_toUInt64]

/-- The page number is compared as it is, without regard to the window that it
    selects. -/
theorem has_next_iff_lt (self : PageResponse T) :
    self.has_next = true ↔ self.page.toNat < self.total_pages.toNat := by
  rw [has_next, decide_eq_true_eq, UInt64.lt_iff_toNat_lt, UInt32.toNat_toUInt64]

/-- A next page exists when the pages up to this one do not hold all items. -/
theorem has_next_iff (self : PageResponse T) (h : 0 < self.per_page.toNat) :
    self.has_next = true ↔ self.page.toNat * self.per_page.toNat < self.total.toNat := by
  rw [has_next_iff_lt, self.total_pages_toNat h, Nat.lt_iff_add_one_le, Nat.le_div_iff_mul_le h,
    Nat.add_mul]
  omega

end PageResponse

end jiezi_cloud_core.types
