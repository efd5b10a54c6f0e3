import JieziCloud.Types.Pagination.Walk

open machine result

namespace jiezi_cloud_core.types

variable {T : Type}

/-- What a walk that starts with this request delivers: page zero is the first
    page once more, and pages of no items deliver nothing. -/
def delivery (xs : List T) (req : PageRequest) : List T :=
  if req.per_page = 0 then []
  else (if req.page = 0 then xs.take req.per_page.toNat else []) ++
    xs.drop ((req.page.toNat - 1) * req.per_page.toNat)

/-- A walk that panics later panics as a whole. -/
theorem walk_panics {xs : List T} {req : PageRequest} {response : PageResponse T} {page : UInt32}
    {panic : Panic} (hanswer : answer xs req = .ok response) (hnext : response.has_next = true)
    (hpage : u32_add req.page 1 = .ok page) (hrest : walk xs { req with page } = .error panic) :
    walk xs req = .error panic := by
  rw [walk, hanswer, ok_bind, if_pos hnext]
  split
  · rfl
  · next heq =>
    rw [hpage] at heq
    cases heq
    rw [hrest, error_bind]

/-- After the last page number there is none, and asking for it is an overflow. -/
theorem walk_overflows {xs : List T} {req : PageRequest} {response : PageResponse T}
    (hanswer : answer xs req = .ok response) (hnext : response.has_next = true)
    (hlast : req.page.toNat + 1 = 2 ^ 32) : walk xs req = .error .arithmetic_overflow := by
  have hadd : u32_add req.page 1 = .error .arithmetic_overflow := by
    rw [u32_add, checked, UInt32.toNat_one, hlast, if_neg (Nat.lt_irrefl _)]
  rw [walk, hanswer, ok_bind, if_pos hnext]
  split
  · rfl
  · next heq => rw [hadd] at heq; cases heq

/-- A listing with more pages than page numbers: the walk runs into the last
    number and panics on the next. The induction is on the numbers left. -/
theorem walk_panics_of_many_pages {xs : List T} (req : PageRequest) (left : Nat)
    (hlength : xs.length < 2 ^ 64) (hper_page : 0 < req.per_page.toNat)
    (hcount : 2 ^ 32 ≤ page_count xs req.per_page) (hleft : req.page.toNat + left + 1 = 2 ^ 32) :
    walk xs req = .error .arithmetic_overflow := by
  induction left generalizing req with
  | zero =>
    obtain ⟨response, hanswer, -, hnext, -⟩ := answer_spec hlength hper_page
    exact walk_overflows hanswer (hnext.mpr (by omega)) hleft
  | succ left ih =>
    obtain ⟨response, hanswer, -, hnext, -⟩ := answer_spec hlength hper_page
    have hroom : req.page.toNat + (1 : UInt32).toNat < 2 ^ 32 := by
      rw [UInt32.toNat_one]
      omega
    obtain ⟨page, hadd, hvalue⟩ := u32_add_spec hroom
    rw [UInt32.toNat_one] at hvalue
    have hleft' : page.toNat + left + 1 = 2 ^ 32 := by omega
    exact walk_panics hanswer (hnext.mpr (by omega)) hadd (ih { req with page } hper_page hcount hleft')

/-- Pages of no items are empty, and none of them announces another. -/
theorem answer_of_no_items (xs : List T) {req : PageRequest} (h : req.per_page = 0) :
    ∃ response, answer xs req = .ok response ∧ response.has_next = false ∧ response.items = [] := by
  obtain ⟨offset, hoffset, -⟩ := req.offset_spec
  refine ⟨.new ((xs.drop offset.toNat).take req.limit.toNat) (UInt64.ofNat xs.length) req.page
    req.per_page, ?_, ?_, ?_⟩
  · rw [answer, hoffset, ok_bind]
  · rw [PageResponse.has_next, PageResponse.total_pages, PageResponse.new, if_pos h]
    simp
  · rw [PageResponse.new, PageRequest.limit_toNat, h, UInt32.toNat_zero, List.take_zero]

/-- A page past the last one is empty and announces no other, so that the walk
    ends with it and delivers nothing. -/
theorem walk_past_end {xs : List T} {req : PageRequest} (hlength : xs.length < 2 ^ 64)
    (hper_page : 0 < req.per_page.toNat) (hpage : 1 ≤ req.page.toNat)
    (hpast : page_count xs req.per_page < req.page.toNat) :
    ∃ pages, walk xs req = .ok pages ∧
      pages.flatMap PageResponse.items = xs.drop ((req.page.toNat - 1) * req.per_page.toNat) := by
  obtain ⟨response, hanswer, -, hnext, hitems⟩ := answer_spec hlength hper_page
  have hlast : ¬response.has_next = true := by
    rw [hnext]
    omega
  have hend := PageRequest.window_end hpage
  have hbound : xs.length ≤ req.page.toNat * req.per_page.toNat :=
    Nat.le_trans (page_count_bounds xs hper_page).1 (Nat.mul_le_mul_right _ (by omega))
  have hwhole : (xs.drop ((req.page.toNat - 1) * req.per_page.toNat)).length ≤ req.per_page.toNat := by
    rw [List.length_drop]
    omega
  refine ⟨[response], walk_last hanswer hlast, ?_⟩
  rw [List.flatMap_singleton, hitems, List.take_of_length_le hwhole]

/-- From page one on, wherever the walk starts. -/
theorem walk_from_any {xs : List T} (req : PageRequest) (hlength : xs.length < 2 ^ 64)
    (hper_page : 0 < req.per_page.toNat) (hcount : page_count xs req.per_page < 2 ^ 32)
    (hpage : 1 ≤ req.page.toNat) : ∃ pages, walk xs req = .ok pages ∧
      pages.flatMap PageResponse.items = xs.drop ((req.page.toNat - 1) * req.per_page.toNat) := by
  obtain hpast | hle := Nat.lt_or_ge (max 1 (page_count xs req.per_page)) req.page.toNat
  · exact walk_past_end hlength hper_page hpage (by omega)
  · obtain ⟨pages, hwalk, -, -, hitems, -⟩ :=
      walk_from req _ hlength hper_page hcount hpage (Nat.add_sub_cancel' hle)
    exact ⟨pages, hwalk, hitems⟩

/-- Page zero selects the window of page one and is followed by page one, unless
    the listing is empty: the first items come twice. -/
theorem walk_from_zero {xs : List T} (req : PageRequest) (hlength : xs.length < 2 ^ 64)
    (hper_page : 0 < req.per_page.toNat) (hcount : page_count xs req.per_page < 2 ^ 32)
    (hpage : req.page.toNat = 0) : ∃ pages, walk xs req = .ok pages ∧
      pages.flatMap PageResponse.items = xs.take req.per_page.toNat ++ xs := by
  obtain ⟨response, hanswer, -, hnext, hitems⟩ := answer_spec hlength hper_page
  rw [hpage, Nat.zero_sub, Nat.zero_mul, List.drop_zero] at hitems
  by_cases hmore : 0 < page_count xs req.per_page
  · obtain ⟨rest, hrest, hrestItems⟩ :=
      walk_from_any { req with page := 1 } hlength hper_page hcount (Nat.le_refl 1)
    have hadd : u32_add req.page 1 = .ok 1 := by
      rw [u32_add_eq_ok_iff, hpage, UInt32.toNat_one]
    rw [UInt32.toNat_one, Nat.sub_self, Nat.zero_mul, List.drop_zero] at hrestItems
    refine ⟨response :: rest, walk_next hanswer (hnext.mpr (by omega)) hadd hrest, ?_⟩
    rw [List.flatMap_cons, hitems, hrestItems]
  · have hempty : xs = [] := by
      have hbounds := (page_count_bounds xs hper_page).1
      rw [Nat.eq_zero_of_not_pos hmore, Nat.zero_mul] at hbounds
      exact List.length_eq_zero_iff.mp (Nat.le_zero.mp hbounds)
    have hlast : ¬response.has_next = true := by
      rw [hnext]
      omega
    refine ⟨[response], walk_last hanswer hlast, ?_⟩
    rw [List.flatMap_singleton, hitems, hempty, List.take_nil, List.append_nil]

/-- Whatever the first request is, the walk ends or runs out of page numbers.
    It runs out of them exactly when the pages outnumber them, and what it
    delivers otherwise is known from the request alone. -/
theorem walk_any (xs : List T) (req : PageRequest) (hlength : xs.length < 2 ^ 64) :
    (walk xs req = .error .arithmetic_overflow ↔
      req.per_page ≠ 0 ∧ 2 ^ 32 ≤ (xs.length + req.per_page.toNat - 1) / req.per_page.toNat) ∧
    (walk xs req = .error .arithmetic_overflow ∨
      ∃ pages, walk xs req = .ok pages ∧ pages.flatMap PageResponse.items = delivery xs req) := by
  obtain hnone | hper_page := Nat.eq_zero_or_pos req.per_page.toNat
  · have hzero : req.per_page = 0 := UInt32.toNat_inj.mp hnone
    obtain ⟨response, hanswer, hnext, hitems⟩ := answer_of_no_items xs hzero
    have hwalk : walk xs req = .ok [response] := walk_last hanswer (by simp [hnext])
    refine ⟨by simp [hwalk, hzero], .inr ⟨[response], hwalk, ?_⟩⟩
    rw [List.flatMap_singleton, hitems, delivery, if_pos hzero]
  · have hne : req.per_page ≠ 0 := by
      intro hzero
      rw [hzero] at hper_page
      exact absurd hper_page (by decide)
    obtain hcount | hmany := Nat.lt_or_ge (page_count xs req.per_page) (2 ^ 32)
    · obtain ⟨pages, hwalk, hitems⟩ : ∃ pages, walk xs req = .ok pages ∧
          pages.flatMap PageResponse.items = delivery xs req := by
        rw [delivery, if_neg hne]
        obtain hzero | hpage := Nat.eq_zero_or_pos req.page.toNat
        · have hpage : req.page = 0 := UInt32.toNat_inj.mp hzero
          rw [if_pos hpage, hzero, Nat.zero_sub, Nat.zero_mul, List.drop_zero]
          exact walk_from_zero req hlength hper_page hcount hzero
        · have hpage' : req.page ≠ 0 := by
            intro hzero
            rw [hzero] at hpage
            exact absurd hpage (by decide)
          rw [if_neg hpage', List.nil_append]
          exact walk_from_any req hlength hper_page hcount hpage
      refine ⟨?_, .inr ⟨pages, hwalk, hitems⟩⟩
      rw [hwalk]
      simp only [reduceCtorEq, false_iff, not_and, Nat.not_le]
      intro _
      exact hcount
    · have hlt := req.page.toNat_lt
      have hleft : req.page.toNat + (2 ^ 32 - 1 - req.page.toNat) + 1 = 2 ^ 32 := by omega
      have hwalk := walk_panics_of_many_pages req _ hlength hper_page hmany hleft
      exact ⟨⟨fun _ => ⟨hne, hmany⟩, fun _ => hwalk⟩, .inl hwalk⟩

/-- Page zero of three items, two a page: the first two come twice. -/
theorem walk_any_from_page_zero :
    ∃ pages, walk ["a", "b", "c"] { page := 0, per_page := 2 } = .ok pages ∧
      pages.flatMap PageResponse.items = ["a", "b", "a", "b", "c"] := by
  obtain ⟨hiff, hpanics | hpages⟩ := walk_any ["a", "b", "c"] { page := 0, per_page := 2 } (by decide)
  · exact absurd (hiff.mp hpanics).2 (by decide)
  · exact hpages

end jiezi_cloud_core.types
