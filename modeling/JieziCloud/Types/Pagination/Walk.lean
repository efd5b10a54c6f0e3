import JieziCloud.Types.Pagination

open machine result

namespace jiezi_cloud_core.types

variable {T : Type}

/-- The answer to one request over a listing: the window of the listing that
    the offset and the limit select. -/
def answer (xs : List T) (req : PageRequest) : Except Panic (PageResponse T) := do
  let offset ← req.offset
  .ok (.new ((xs.drop offset.toNat).take req.limit.toNat) (UInt64.ofNat xs.length) req.page
    req.per_page)

/-- A client that asks for the following page as long as there is one, with the
    pages it receives. -/
def walk (xs : List T) (req : PageRequest) : Except Panic (List (PageResponse T)) := do
  let response ← answer xs req
  if response.has_next then
    match _hpage : u32_add req.page 1 with
    | .error panic => .error panic
    | .ok page => do
      let rest ← walk xs { req with page }
      .ok (response :: rest)
  else .ok [response]
termination_by 2 ^ 32 - req.page.toNat
decreasing_by
  have hlt := page.toNat_lt
  rw [u32_add_eq_ok_iff, UInt32.toNat_one] at _hpage
  simp only [_hpage] at hlt ⊢
  omega

/-- An answer repeats the page and the size that were asked for, and tells the
    length of the listing. -/
theorem answer_repeats {xs : List T} {req : PageRequest} {response : PageResponse T}
    (h : answer xs req = .ok response) : response.page = req.page ∧
      response.per_page = req.per_page ∧ response.total = UInt64.ofNat xs.length := by
  obtain ⟨offset, _, hresponse⟩ := bind_eq_ok_iff.mp h
  cases hresponse
  exact ⟨rfl, rfl, rfl⟩

/-- The pages that a listing of this length fills, at this size. -/
def page_count (xs : List T) (per_page : UInt32) : Nat :=
  (xs.length + per_page.toNat - 1) / per_page.toNat

/-- Every request is answered, with the window that its page names. Of the page it
    is also told how many there are, and whether it is the last. -/
theorem answer_spec {xs : List T} (hlength : xs.length < 2 ^ 64) {req : PageRequest}
    (hper_page : 0 < req.per_page.toNat) :
    ∃ response, answer xs req = .ok response ∧
      response.total_pages.toNat = page_count xs req.per_page ∧
      (response.has_next = true ↔ req.page.toNat < page_count xs req.per_page) ∧
      response.items = (xs.drop ((req.page.toNat - 1) * req.per_page.toNat)).take req.per_page.toNat := by
  obtain ⟨offset, hoffset, hvalue⟩ := req.offset_spec
  have hanswer : answer xs req = .ok (.new ((xs.drop offset.toNat).take req.limit.toNat)
      (UInt64.ofNat xs.length) req.page req.per_page) := by
    rw [answer, hoffset, ok_bind]
  have hpages : (PageResponse.new ((xs.drop offset.toNat).take req.limit.toNat)
      (UInt64.ofNat xs.length) req.page req.per_page).total_pages.toNat = page_count xs req.per_page := by
    rw [PageResponse.total_pages_toNat _ hper_page]
    simp only [PageResponse.new, UInt64.toNat_ofNat_of_lt' hlength, page_count]
  refine ⟨_, hanswer, hpages, ?_, ?_⟩
  · rw [PageResponse.has_next_iff_lt, hpages]
    exact Iff.rfl
  · simp only [PageResponse.new, hvalue, PageRequest.limit_toNat]

/-- The walk ends with the first page that announces no other. -/
theorem walk_last {xs : List T} {req : PageRequest} {response : PageResponse T}
    (hanswer : answer xs req = .ok response) (hnext : ¬response.has_next = true) :
    walk xs req = .ok [response] := by
  rw [walk, hanswer, ok_bind, if_neg hnext]

/-- Otherwise it goes on with the following page number. -/
theorem walk_next {xs : List T} {req : PageRequest} {response : PageResponse T} {page : UInt32}
    {rest : List (PageResponse T)} (hanswer : answer xs req = .ok response)
    (hnext : response.has_next = true) (hpage : u32_add req.page 1 = .ok page)
    (hrest : walk xs { req with page } = .ok rest) : walk xs req = .ok (response :: rest) := by
  rw [walk, hanswer, ok_bind, if_pos hnext]
  split
  · next heq => rw [hpage] at heq; cases heq
  · next heq =>
    rw [hpage] at heq
    cases heq
    rw [hrest, ok_bind]

/-- What a walk that returns has done: it answered, and stopped or went on with
    the following page number. This is how walks are taken apart. -/
theorem walk_cases {T : Type} {xs : List T} {req : PageRequest} {pages : List (PageResponse T)}
    (h : walk xs req = .ok pages) : ∃ response, answer xs req = .ok response ∧
      ((¬response.has_next = true ∧ pages = [response]) ∨
        (response.has_next = true ∧ ∃ page rest, u32_add req.page 1 = .ok page ∧
          walk xs { req with page } = .ok rest ∧ pages = response :: rest)) := by
  rw [walk, bind_eq_ok_iff] at h
  obtain ⟨response, hanswer, h⟩ := h
  refine ⟨response, hanswer, ?_⟩
  split at h
  · next hnext =>
    split at h
    · cases h
    · next page hpage =>
      obtain ⟨rest, hrest, h⟩ := bind_eq_ok_iff.mp h
      exact .inr ⟨hnext, page, rest, hpage, hrest, (Except.ok.inj h).symm⟩
  · next hnext => exact .inl ⟨hnext, (Except.ok.inj h).symm⟩

/-- The pages of a walk are numbered from the first request on, are all of the
    size that was asked for, and agree on the length of the listing. The induction
    is on the pages received. -/
theorem walk_repeats {xs : List T} {req : PageRequest} {pages : List (PageResponse T)}
    (h : walk xs req = .ok pages) :
    pages.map (fun page => page.page.toNat) = List.range' req.page.toNat pages.length ∧
      ∀ page ∈ pages, page.per_page = req.per_page ∧ page.total = UInt64.ofNat xs.length := by
  induction pages generalizing req with
  | nil =>
    obtain ⟨_, _, ⟨_, heq⟩ | ⟨_, _, _, _, _, heq⟩⟩ := walk_cases h
    · cases heq
    · cases heq
  | cons response rest ih =>
    obtain ⟨_, hanswer, ⟨_, heq⟩ | ⟨_, page, _, hadd, hrest, heq⟩⟩ := walk_cases h
    · cases heq
      obtain ⟨hpage, hsame⟩ := answer_repeats hanswer
      rw [List.forall_mem_singleton]
      exact ⟨by simp [hpage], hsame⟩
    · cases heq
      obtain ⟨hpage, hsame⟩ := answer_repeats hanswer
      obtain ⟨hnumbers, hrestSame⟩ := ih hrest
      rw [u32_add_eq_ok_iff, UInt32.toNat_one] at hadd
      rw [List.map_cons, hnumbers, hpage, List.length_cons, List.range'_succ, hadd,
        List.forall_mem_cons]
      exact ⟨rfl, hsame, hrestSame⟩

/-- All pages together hold the listing, and all but one of them do not. -/
theorem page_count_bounds (xs : List T) {per_page : UInt32} (h : 0 < per_page.toNat) :
    xs.length ≤ page_count xs per_page * per_page.toNat ∧
      page_count xs per_page * per_page.toNat < xs.length + per_page.toNat := by
  have hdiv := Nat.div_add_mod (xs.length + per_page.toNat - 1) per_page.toNat
  have hmod := Nat.mod_lt (xs.length + per_page.toNat - 1) h
  rw [Nat.mul_comm] at hdiv
  unfold page_count
  omega

/-- A page before the last one lies wholly within the listing. -/
theorem mul_lt_length {xs : List T} {per_page : UInt32} {page : Nat} (h : 0 < per_page.toNat)
    (hpage : page < page_count xs per_page) : page * per_page.toNat < xs.length := by
  have hnext : (page + 1) * per_page.toNat ≤ page_count xs per_page * per_page.toNat :=
    Nat.mul_le_mul_right _ hpage
  have hbounds := page_count_bounds xs h
  rw [Nat.add_mul, Nat.one_mul] at hnext
  omega

/-- The walk from any page on: it ends on the last page, and delivers what lies
    beyond the earlier pages. The induction is on the pages that are left. -/
theorem walk_from {xs : List T} (req : PageRequest) (left : Nat) (hlength : xs.length < 2 ^ 64)
    (hper_page : 0 < req.per_page.toNat) (hcount : page_count xs req.per_page < 2 ^ 32)
    (hpage : 1 ≤ req.page.toNat)
    (hleft : req.page.toNat + left = max 1 (page_count xs req.per_page)) :
    ∃ pages, walk xs req = .ok pages ∧ pages.length = left + 1 ∧
      (∀ page ∈ pages, page.total_pages.toNat = page_count xs req.per_page) ∧
      pages.flatMap PageResponse.items = xs.drop ((req.page.toNat - 1) * req.per_page.toNat) ∧
      ∀ page ∈ pages.dropLast, page.items.length = req.per_page.toNat := by
  have hend := PageRequest.window_end hpage
  induction left generalizing req with
  | zero =>
    obtain ⟨response, hanswer, hpages, hnext, hitems⟩ := answer_spec hlength hper_page
    have hlast : ¬response.has_next = true := by
      rw [hnext]
      omega
    have hbound : xs.length ≤ req.page.toNat * req.per_page.toNat :=
      Nat.le_trans (page_count_bounds xs hper_page).1 (Nat.mul_le_mul_right _ (by omega))
    have hwhole : (xs.drop ((req.page.toNat - 1) * req.per_page.toNat)).length ≤ req.per_page.toNat := by
      rw [List.length_drop]
      omega
    refine ⟨[response], walk_last hanswer hlast, rfl, ?_, ?_, ?_⟩
    · rw [List.forall_mem_singleton]
      exact hpages
    · rw [List.flatMap_singleton, hitems, List.take_of_length_le hwhole]
    · simp
  | succ left ih =>
    obtain ⟨response, hanswer, hpages, hnext, hitems⟩ := answer_spec hlength hper_page
    have hbefore : req.page.toNat < page_count xs req.per_page := by omega
    have hwithin := mul_lt_length hper_page hbefore
    have hroom : req.page.toNat + (1 : UInt32).toNat < 2 ^ 32 := by
      rw [UInt32.toNat_one]
      omega
    obtain ⟨page, hadd, hvalue⟩ := u32_add_spec hroom
    rw [UInt32.toNat_one] at hvalue
    have hpage' : 1 ≤ page.toNat := by omega
    have hleft' : page.toNat + left = max 1 (page_count xs req.per_page) := by omega
    obtain ⟨rest, hrest, hrestLength, hrestPages, hrestItems, hrestFull⟩ :=
      ih { req with page } hper_page hcount hpage' hleft' (PageRequest.window_end hpage')
    refine ⟨response :: rest, walk_next hanswer (hnext.mpr hbefore) hadd hrest, ?_, ?_, ?_, ?_⟩
    · rw [List.length_cons, hrestLength]
    · rw [List.forall_mem_cons]
      exact ⟨hpages, hrestPages⟩
    · rw [List.flatMap_cons, hrestItems, hitems, hvalue, Nat.add_sub_cancel, ← hend,
        ← List.drop_drop, List.take_append_drop]
    · have hne : rest ≠ [] := by
        rintro rfl
        cases hrestLength
      rw [List.dropLast_cons_of_ne_nil hne, List.forall_mem_cons]
      refine ⟨?_, hrestFull⟩
      rw [hitems, List.length_take, List.length_drop]
      omega

/-- A client that starts on the first page and follows `has_next` receives the
    whole listing, each item once and in order, in full pages up to the last.
    The pages are as many as the listing fills, numbered from one on, and each of
    them tells the length of the listing, the size and their count. -/
theorem walk_spec (xs : List T) (per_page : UInt32) (hlength : xs.length < 2 ^ 64)
    (hper_page : 1 ≤ per_page.toNat)
    (hcount : (xs.length + per_page.toNat - 1) / per_page.toNat ≤ 2 ^ 32 - 1) :
    ∃ pages, walk xs { page := 1, per_page } = .ok pages ∧ pages ≠ [] ∧
      (∀ page ∈ pages, pages.length = max 1 page.total_pages.toNat) ∧
      pages.flatMap PageResponse.items = xs ∧
      (∀ page ∈ pages.dropLast, page.items.length = per_page.toNat) ∧
      pages.length = max 1 ((xs.length + per_page.toNat - 1) / per_page.toNat) ∧
      pages.map (fun page => page.page.toNat) = List.range' 1 pages.length ∧
      ∀ page ∈ pages, page.per_page = per_page ∧ page.total.toNat = xs.length ∧
        page.total_pages.toNat = (xs.length + per_page.toNat - 1) / per_page.toNat := by
  have hpages : page_count xs per_page < 2 ^ 32 := Nat.lt_of_le_of_lt hcount (by decide)
  have hleft : (1 : UInt32).toNat + (max 1 (page_count xs per_page) - 1) =
      max 1 (page_count xs per_page) := by
    rw [UInt32.toNat_one]
    omega
  obtain ⟨pages, hwalk, hpagesLength, htotal, hitems, hfull⟩ :=
    walk_from { page := 1, per_page } _ hlength hper_page hpages (Nat.le_refl 1) hleft
  obtain ⟨hnumbers, hsame⟩ := walk_repeats hwalk
  have hcounted : pages.length = max 1 (page_count xs per_page) := by
    rw [hpagesLength]
    omega
  refine ⟨pages, hwalk, ?_, ?_, ?_, hfull, hcounted, hnumbers, ?_⟩
  · rintro rfl
    cases hpagesLength
  · intro page hmem
    rw [htotal page hmem, hcounted]
  · rw [hitems]
    simp
  · intro page hmem
    obtain ⟨hper, htotalSame⟩ := hsame page hmem
    refine ⟨hper, ?_, htotal page hmem⟩
    rw [htotalSame, UInt64.toNat_ofNat_of_lt' hlength]

/-- Three items at two a page: a full page, and one with the last item. -/
theorem walk_spec_three_by_two :
    ∃ pages, walk ["a", "b", "c"] { page := 1, per_page := 2 } = .ok pages ∧ pages ≠ [] ∧
      (∀ page ∈ pages, pages.length = max 1 page.total_pages.toNat) ∧
      pages.flatMap PageResponse.items = ["a", "b", "c"] ∧
      (∀ page ∈ pages.dropLast, page.items.length = 2) ∧ pages.length = 2 ∧
      pages.map (fun page => page.page.toNat) = List.range' 1 pages.length ∧
      ∀ page ∈ pages, page.per_page = 2 ∧ page.total.toNat = 3 ∧ page.total_pages.toNat = 2 :=
  walk_spec ["a", "b", "c"] 2 (by decide) (by decide) (by decide)

end jiezi_cloud_core.types
