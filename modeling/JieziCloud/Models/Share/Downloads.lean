import JieziCloud.Machine
import JieziCloud.Models.Share

open chrono machine result

namespace jiezi_cloud_core.models.share

variable {Utc : Type} [TimeLine Utc]

/-- One request for the file: it is served when the link is valid at its time,
    and a served request adds one to the downloads recorded. -/
def ShareLink.request (self : ShareLink Utc) (now : DateTime Utc) :
    Except Panic (Bool × ShareLink Utc) :=
  if self.is_valid_at now then do
    let download_count ← u32_add self.download_count 1
    .ok (true, { self with download_count })
  else .ok (false, self)

/-- The requests one after the other: whether each was served, and the link
    after it. -/
def ShareLink.requests (self : ShareLink Utc) :
    List (DateTime Utc) → Except Panic (List (Bool × ShareLink Utc))
  | [] => .ok []
  | now :: times => do
    let (served, link) ← self.request now
    let rest ← link.requests times
    .ok ((served, link) :: rest)

/-- How many of the times are at or before the expiry: all of them when the link
    has none. -/
def ShareLink.times_to_expiry (self : ShareLink Utc) (times : List (DateTime Utc)) : Nat :=
  match self.expires_at with
  | some exp => times.countP fun now => now ≤ exp
  | none => times.length

/-- The downloads that are left of the limit, or fewer where not so many
    requests are made before the link expires. -/
def ShareLink.allowance (self : ShareLink Utc) (limit : UInt32) (times : List (DateTime Utc)) : Nat :=
  min (limit.toNat - self.download_count.toNat) (self.times_to_expiry times)

@[simp] theorem ShareLink.times_to_expiry_nil (self : ShareLink Utc) : self.times_to_expiry [] = 0 := by
  unfold times_to_expiry
  cases self.expires_at with
  | none => rfl
  | some exp => rfl

/-- The check of the link lets a time pass exactly when it is one of those that
    count. -/
theorem ShareLink.times_to_expiry_cons (self : ShareLink Utc) (now : DateTime Utc)
    (times : List (DateTime Utc)) : self.times_to_expiry (now :: times) =
      self.times_to_expiry times + if self.expired_at now then 0 else 1 := by
  cases hexp : self.expires_at with
  | none => simp [times_to_expiry, expired_at, hexp]
  | some exp =>
    simp only [times_to_expiry, expired_at, hexp, List.countP_cons, decide_eq_true_eq, gt_iff_lt]
    by_cases hafter : exp < now
    · rw [if_pos hafter, if_neg (not_le_of_gt hafter)]
    · rw [if_neg hafter, if_pos (le_of_not_gt hafter)]

/-- Once a link has expired, no later time is within the expiry. -/
theorem ShareLink.times_to_expiry_of_expired {self : ShareLink Utc} {now : DateTime Utc}
    {times : List (DateTime Utc)} (hexpired : self.expired_at now = true)
    (hlater : ∀ later ∈ times, now ≤ later) : self.times_to_expiry times = 0 := by
  cases hexp : self.expires_at with
  | none => simp [expired_at, hexp] at hexpired
  | some exp =>
    have hafter : exp < now := by simpa [expired_at, hexp] using hexpired
    simp only [times_to_expiry, hexp]
    rw [List.countP_eq_zero]
    intro later hmem
    have hstill : exp < later := lt_of_lt_of_le hafter (hlater later hmem)
    simpa using hstill

/-- A valid link serves the request and counts it. The count has room for it, as
    it was below the limit, which is a number of the same width. -/
theorem ShareLink.request_of_valid {self : ShareLink Utc} {limit : UInt32} {now : DateTime Utc}
    (hlimit : self.download_limit = some limit) (hvalid : self.is_valid_at now = true) :
    ∃ link, self.request now = .ok (true, link) ∧
      link = { self with download_count := link.download_count } ∧
      link.download_count.toNat = self.download_count.toNat + 1 ∧
      self.download_count.toNat < limit.toNat := by
  have hbelow : self.download_count.toNat < limit.toNat := by
    have hexhausted := ((self.is_valid_at_iff now).mp hvalid).2
    simpa [exhausted, hlimit, UInt32.lt_iff_toNat_lt] using hexhausted
  have hroom : self.download_count.toNat + (1 : UInt32).toNat < 2 ^ 32 := by
    have hlt := limit.toNat_lt
    rw [UInt32.toNat_one]
    omega
  obtain ⟨count, hadd, hcount⟩ := u32_add_spec hroom
  rw [UInt32.toNat_one] at hcount
  refine ⟨{ self with download_count := count }, ?_, rfl, hcount, hbelow⟩
  simp only [request, hvalid, if_true, hadd, ok_bind]

/-- Any other link refuses the request and stays as it is. -/
theorem ShareLink.request_of_invalid {self : ShareLink Utc} {now : DateTime Utc}
    (hvalid : ¬self.is_valid_at now = true) : self.request now = .ok (false, self) := by
  rw [request, if_neg hvalid]

theorem ShareLink.requests_cons {self link : ShareLink Utc} {now : DateTime Utc} {served : Bool}
    {times : List (DateTime Utc)} {rest : List (Bool × ShareLink Utc)}
    (hrequest : self.request now = .ok (served, link)) (hrest : link.requests times = .ok rest) :
    self.requests (now :: times) = .ok ((served, link) :: rest) := by
  simp only [requests, hrequest, hrest, ok_bind]

/-- Once a link refuses a request, none of the later ones has an allowance. -/
theorem ShareLink.allowance_of_invalid {self : ShareLink Utc} {limit : UInt32} {now : DateTime Utc}
    {times : List (DateTime Utc)} (hlimit : self.download_limit = some limit)
    (hvalid : ¬self.is_valid_at now = true) (hlater : ∀ later ∈ times, now ≤ later) :
    self.allowance limit times = 0 := by
  rw [is_valid_at_iff, not_and_or] at hvalid
  unfold allowance
  obtain hexpired | hexhausted := hvalid
  · rw [Bool.not_eq_false] at hexpired
    rw [times_to_expiry_of_expired hexpired hlater, Nat.min_zero]
  · have hfull : limit.toNat ≤ self.download_count.toNat := by
      simpa [exhausted, hlimit, UInt32.le_iff_toNat_le] using hexhausted
    rw [Nat.sub_eq_zero_of_le hfull, Nat.zero_min]

/-- Requests whose times never go backwards: no addition overflows, the served
    ones come first and are as many as the allowance, and the count stays within
    the limit unless it was beyond it from the start. The induction is on the
    requests, with the link as each of them leaves it. -/
theorem ShareLink.requests_spec (self : ShareLink Utc) {limit : UInt32}
    {times : List (DateTime Utc)} (hlimit : self.download_limit = some limit)
    (htimes : times.Pairwise (· ≤ ·)) :
    ∃ outcomes, self.requests times = .ok outcomes ∧
      outcomes.map Prod.fst = List.replicate (self.allowance limit times) true ++
        List.replicate (times.length - self.allowance limit times) false ∧
      ∀ outcome ∈ outcomes, outcome.2.download_count.toNat ≤
        max self.download_count.toNat limit.toNat := by
  induction times generalizing self with
  | nil =>
    refine ⟨[], rfl, ?_, ?_⟩
    · simp [allowance]
    · simp
  | cons now times ih =>
    rw [List.pairwise_cons] at htimes
    by_cases hvalid : self.is_valid_at now = true
    · obtain ⟨link, hrequest, hlink, hcount, hbelow⟩ := request_of_valid hlimit hvalid
      have hsame : link.times_to_expiry times = self.times_to_expiry times := by
        rw [hlink]
        rfl
      have hlinkLimit : link.download_limit = some limit := by
        rw [hlink]
        exact hlimit
      obtain ⟨outcomes, hrequests, hserved, hbound⟩ := ih link hlinkLimit htimes.2
      have hexpired := ((self.is_valid_at_iff now).mp hvalid).1
      have hallowance : self.allowance limit (now :: times) = link.allowance limit times + 1 := by
        simp only [allowance, times_to_expiry_cons, hexpired, hsame, hcount, Bool.false_eq_true, if_false]
        omega
      refine ⟨(true, link) :: outcomes, requests_cons hrequest hrequests, ?_, ?_⟩
      · rw [List.map_cons, hserved, hallowance, List.replicate_succ, List.cons_append, List.length_cons,
          Nat.add_sub_add_right]
      · rw [List.forall_mem_cons]
        constructor
        · dsimp only
          omega
        · intro outcome hmem
          have hle := hbound outcome hmem
          omega
    · obtain ⟨outcomes, hrequests, hserved, hbound⟩ := ih self hlimit htimes.2
      have hnone : self.allowance limit times = 0 :=
        allowance_of_invalid hlimit hvalid htimes.1
      have hnone' : self.allowance limit (now :: times) = 0 := by
        apply allowance_of_invalid hlimit hvalid
        rw [List.forall_mem_cons]
        exact ⟨le_refl now, htimes.1⟩
      refine ⟨(false, self) :: outcomes, requests_cons (request_of_invalid hvalid) hrequests, ?_, ?_⟩
      · rw [List.map_cons, hserved, hnone, hnone', List.replicate_zero, List.nil_append, List.nil_append,
          Nat.sub_zero, Nat.sub_zero, List.length_cons, List.replicate_succ]
      · rw [List.forall_mem_cons]
        exact ⟨Nat.le_max_left _ _, hbound⟩

/-- One of two downloads is left, and the link expires at the thirtieth second. -/
def expiring_link : ShareLink FirstMinute :=
  { protected_link with
    expires_at := some (FirstMinute.second 30), download_limit := some 2, download_count := 1 }

/-- Two requests before the link expires, and one after. -/
def request_times : List (DateTime FirstMinute) :=
  [FirstMinute.second 10, FirstMinute.second 20, FirstMinute.second 40]

/-- The first request takes the download that is left. -/
theorem expiring_link_requests :
    ∃ outcomes, expiring_link.requests request_times = .ok outcomes ∧
      outcomes.map Prod.fst = [true, false, false] ∧
      ∀ outcome ∈ outcomes, outcome.2.download_count.toNat ≤ 2 :=
  expiring_link.requests_spec rfl (by decide)

end jiezi_cloud_core.models.share
