import JieziCloud.Types.Pagination

open machine

namespace jiezi_cloud_core.types

variable {T : Type}

/-- What a client that follows `has_next` relies on. There is a next page
    exactly when an item lies beyond the window of the request, and the window
    of the following page number starts where this one ends. -/
def PageRequest.LeadsOn (self : PageRequest) (response : PageResponse T) : Prop :=
  ∃ offset beyond, self.offset = .ok offset ∧ u64_add offset self.limit = .ok beyond ∧
    (response.has_next = true ↔ beyond < response.total) ∧
    (response.has_next = true → ∃ page, u32_add self.page 1 = .ok page ∧
      { self with page }.offset = .ok beyond)

/-- The response that repeats the page and the size of the request. -/
def PageRequest.echo (self : PageRequest) (items : List T) (total : UInt64) : PageResponse T :=
  .new items total self.page self.per_page

/-- The end of the window can be computed for every request: neither the product
    nor the sum overflows. -/
theorem PageRequest.beyond_spec (self : PageRequest) :
    ∃ offset beyond, self.offset = .ok offset ∧ u64_add offset self.limit = .ok beyond ∧
      beyond.toNat = (self.page.toNat - 1) * self.per_page.toNat + self.per_page.toNat := by
  obtain ⟨offset, hoffset, hvalue⟩ := self.offset_spec
  have hroom : offset.toNat + self.limit.toNat < 2 ^ 64 := by
    rw [hvalue, self.limit_toNat]
    exact self.window_lt
  obtain ⟨beyond, hbeyond, hsum⟩ := u64_add_spec hroom
  rw [hvalue, self.limit_toNat] at hsum
  exact ⟨offset, beyond, hoffset, hbeyond, hsum⟩

/-- The same over the natural numbers, where nothing overflows: `has_next`
    compares the page number as it is, and the window is that of page one for page
    zero as well. -/
theorem PageRequest.leadsOn_iff_toNat (self : PageRequest) (items : List T) (total : UInt64)
    (hper_page : 1 ≤ self.per_page.toNat) :
    self.LeadsOn (self.echo items total) ↔
      (self.page.toNat * self.per_page.toNat < total.toNat ↔
        (self.page.toNat - 1) * self.per_page.toNat + self.per_page.toNat < total.toNat) ∧
      (self.page.toNat * self.per_page.toNat < total.toNat → self.page.toNat + 1 < 2 ^ 32 ∧
        (self.page.toNat - 1) * self.per_page.toNat + self.per_page.toNat =
          self.page.toNat * self.per_page.toNat) := by
  obtain ⟨offset, beyond, hoffset, hbeyond, hvalue⟩ := self.beyond_spec
  have hnext : (self.echo items total).has_next = true ↔
      self.page.toNat * self.per_page.toNat < total.toNat :=
    PageResponse.has_next_iff _ hper_page
  have hwindow : beyond < (self.echo items total).total ↔
      (self.page.toNat - 1) * self.per_page.toNat + self.per_page.toNat < total.toNat := by
    rw [UInt64.lt_iff_toNat_lt, hvalue]
    exact Iff.rfl
  have hfollowing : (∃ page, u32_add self.page 1 = .ok page ∧ { self with page }.offset = .ok beyond) ↔
      self.page.toNat + 1 < 2 ^ 32 ∧
        (self.page.toNat - 1) * self.per_page.toNat + self.per_page.toNat =
          self.page.toNat * self.per_page.toNat := by
    simp only [u32_add_eq_ok_iff, offset_eq_ok_iff, UInt32.toNat_one, hvalue]
    constructor
    · rintro ⟨page, hpage, heq⟩
      have hlt := page.toNat_lt
      rw [hpage, Nat.add_sub_cancel] at heq
      rw [hpage] at hlt
      exact ⟨hlt, heq⟩
    · rintro ⟨hlt, heq⟩
      have hroom : self.page.toNat + (1 : UInt32).toNat < 2 ^ 32 := by rwa [UInt32.toNat_one]
      obtain ⟨page, -, hpage⟩ := u32_add_spec hroom
      rw [UInt32.toNat_one] at hpage
      refine ⟨page, hpage, ?_⟩
      rw [heq, hpage, Nat.add_sub_cancel]
  constructor
  · rintro ⟨offset', beyond', hoffset', hbeyond', hleads⟩
    rw [hoffset, Except.ok.injEq] at hoffset'
    subst hoffset'
    rw [hbeyond, Except.ok.injEq] at hbeyond'
    subst hbeyond'
    rwa [hnext, hwindow, hfollowing] at hleads
  · intro hleads
    refine ⟨offset, beyond, hoffset, hbeyond, ?_⟩
    rwa [hnext, hwindow, hfollowing]

/-- Pages from one on lead on unless they are the last page number there is
    and items remain. Page zero selects the window of page one but counts as
    the page before it, which goes wrong unless nothing matches at all. -/
theorem PageRequest.leadsOn_iff (self : PageRequest) (items : List T) (total : UInt64)
    (hper_page : 1 ≤ self.per_page.toNat) :
    self.LeadsOn (self.echo items total) ↔
      (self.page = 0 ∧ total = 0) ∨ (1 ≤ self.page.toNat ∧
        (self.page.toNat < 2 ^ 32 - 1 ∨ total.toNat ≤ (2 ^ 32 - 1) * self.per_page.toNat)) := by
  have hlt := self.page.toNat_lt
  rw [self.leadsOn_iff_toNat items total hper_page, ← UInt32.toNat_inj, ← UInt64.toNat_inj,
    UInt32.toNat_zero, UInt64.toNat_zero]
  obtain hzero | hone := Nat.eq_zero_or_pos self.page.toNat
  · rw [hzero]
    simp only [Nat.zero_mul, Nat.zero_sub, Nat.zero_add]
    constructor
    · rintro ⟨-, hnext⟩
      refine .inl ⟨trivial, ?_⟩
      by_contra hsome
      have hempty := (hnext (Nat.pos_of_ne_zero hsome)).2
      omega
    · rintro (⟨-, hnone⟩ | ⟨hpage, -⟩)
      · rw [hnone]
        simp
      · omega
  · rw [window_end hone]
    obtain hbelow | hlast := Nat.lt_or_eq_of_le (Nat.le_sub_one_of_lt hlt)
    · simp only [true_and]
      constructor
      · intro _
        exact .inr ⟨hone, .inl hbelow⟩
      · intro _ _
        have hnext : self.page.toNat + 1 < 2 ^ 32 := by omega
        exact ⟨hnext, trivial⟩
    · rw [hlast]
      simp only [true_and]
      omega

/-- The first page of twenty-one items leads on to the last item. -/
theorem PageRequest.leadsOn_first_page :
    (PageRequest.mk 1 20).LeadsOn ((PageRequest.mk 1 20).echo ["a"] 21) := by
  apply (PageRequest.leadsOn_iff { page := 1, per_page := 20 } ["a"] 21 (by decide)).mpr
  exact .inr ⟨by decide, .inl (by decide)⟩

/-- Page zero of five items at twenty a page: its window holds all five, and
    `has_next` announces another page, which is the same window once more. -/
theorem PageRequest.not_leadsOn_page_zero :
    ¬(PageRequest.mk 0 20).LeadsOn ((PageRequest.mk 0 20).echo ["a", "b", "c", "d", "e"] 5) := by
  rintro ⟨offset, beyond, hoffset, hbeyond, hwindow, -⟩
  have hfirst : offset = 0 := by
    have heq : (PageRequest.mk 0 20).offset = .ok 0 := rfl
    rw [heq] at hoffset
    exact (Except.ok.inj hoffset).symm
  have hlimit : beyond = 20 := by
    subst hfirst
    have heq : u64_add 0 (PageRequest.mk 0 20).limit = .ok 20 := rfl
    rw [heq] at hbeyond
    exact (Except.ok.inj hbeyond).symm
  subst hlimit
  exact absurd (hwindow.mp (by decide)) (by decide)

end jiezi_cloud_core.types
