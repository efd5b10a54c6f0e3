import JieziCloud.Interleaving
import JieziCloud.Models.Share.Downloads
import JieziCloud.Recovery

open chrono interleaving json machine result serde

namespace jiezi_cloud_core.models.share.ShareLink

variable {Utc : Type}

/-- What a link and its stored descendants agree on, after so many downloads. -/
structure Accounts (link last : ShareLink Utc) (downloads : Nat) : Prop where
  download_limit : last.download_limit = link.download_limit
  download_count : last.download_count.toNat = link.download_count.toNat + downloads
  within : ∀ limit, link.download_limit = some limit →
    last.download_count.toNat ≤ max link.download_count.toNat limit.toNat

variable [TimeLine Utc]

/-- What one request can do: serve, and count one download more, or refuse. In
    both cases the limit and the expiry stay as they are. -/
theorem request_cases {self next : ShareLink Utc} {now : DateTime Utc} {served : Bool}
    (h : self.request now = .ok (served, next)) :
    (self.is_valid_at now = true ∧ served = true ∧
      ∃ count, u32_add self.download_count 1 = .ok count ∧ next = { self with download_count := count }) ∨
    (self.is_valid_at now = false ∧ served = false ∧ next = self) := by
  unfold request at h
  split at h
  · next hvalid =>
    obtain ⟨count, hadd, hnext⟩ := bind_eq_ok_iff.mp h
    cases hnext
    exact .inl ⟨hvalid, rfl, count, hadd, rfl⟩
  · next hvalid =>
    cases h
    exact .inr ⟨Bool.not_eq_true _ ▸ hvalid, rfl, rfl⟩

/-- A request does not look at the password, and leaves it alone. -/
theorem AgreesWith.request {self other next : ShareLink Utc} (h : self.AgreesWith other)
    {now : DateTime Utc} {served : Bool} (hrequest : self.request now = .ok (served, next)) :
    ∃ next', other.request now = .ok (served, next') ∧ next.AgreesWith next' := by
  have hvalid : other.is_valid_at now = self.is_valid_at now := by
    rw [← h]
    rfl
  have hcount : other.download_count = self.download_count := by rw [← h]
  obtain ⟨hserve, rfl, count, hadd, rfl⟩ | ⟨hrefuse, rfl, rfl⟩ := request_cases hrequest
  · refine ⟨{ other with download_count := count }, ?_, ?_⟩
    · rw [ShareLink.request, hvalid, if_pos hserve, hcount, hadd, ok_bind]
    · rw [AgreesWith, ← h]
  · exact ⟨other, by rw [ShareLink.request, hvalid, hrefuse]; rfl, h⟩

/-- The bookkeeping of one request: the count follows what was served, and only
    what the limit has room for is served. -/
theorem request_count {self next : ShareLink Utc} {now : DateTime Utc} {served : Bool}
    (h : self.request now = .ok (served, next)) :
    next.download_limit = self.download_limit ∧
      next.download_count.toNat = self.download_count.toNat + served.toNat ∧
      ∀ limit, self.download_limit = some limit →
        next.download_count.toNat ≤ max self.download_count.toNat limit.toNat := by
  obtain ⟨hserve, rfl, count, hadd, rfl⟩ | ⟨_, rfl, rfl⟩ := request_cases h
  · rw [u32_add_eq_ok_iff, UInt32.toNat_one] at hadd
    refine ⟨rfl, hadd, ?_⟩
    intro limit hlimit
    obtain ⟨_, _, _, _, hbelow⟩ := request_of_valid hlimit hserve
    dsimp only
    omega
  · exact ⟨rfl, rfl, fun _ _ => Nat.le_max_left _ _⟩

/-- The outputs of a run are what the requests come to. -/
theorem requests_of_run {self last : ShareLink Utc} {times : List (DateTime Utc)} {served : List Bool}
    (h : run request self times = .ok (served, last)) :
    ∃ outcomes, self.requests times = .ok outcomes ∧ outcomes.map Prod.fst = served := by
  induction times generalizing self served with
  | nil =>
    cases h
    exact ⟨[], rfl, rfl⟩
  | cons now times ih =>
    obtain ⟨⟨first, next⟩, hrequest, h⟩ := bind_eq_ok_iff.mp h
    obtain ⟨⟨rest, last'⟩, hrun, h⟩ := bind_eq_ok_iff.mp h
    cases h
    obtain ⟨outcomes, hrequests, rfl⟩ := ih hrun
    exact ⟨(first, next) :: outcomes, requests_cons hrequest hrequests, rfl⟩

section stored

variable [uuid.Parser] [TextFormat recursion_limit]

/-- Requests between which the link may be sent through a channel, and be
    replaced by what arrives. -/
abbrev StoredRun : ShareLink Utc → List (DateTime Utc) → List Bool → ShareLink Utc → Prop :=
  Changed request Arrives

/-- A link that has been stored and loaded agrees with itself up to the hash, even
    if the store has put another hash in. -/
theorem agreesWith_of_arrives {self other : ShareLink Utc} (h : Arrives self other) :
    self.AgreesWith other :=
  (arrives_iff_of_nestsAtMost (share_link_recovers Utc) (self.nestsAtMost.mono (by decide)) other).mp h

/-- The store hides behind the hash: links that agree up to it serve the same
    requests, and still agree up to it afterwards. -/
theorem hides : Hides (@request Utc _) Arrives AgreesWith where
  change harrives hsame := by
    rw [AgreesWith, ← agreesWith_of_arrives harrives, ← hsame]
  step hrequest hsame := hsame.request hrequest

/-- Over a whole run the served requests are the ones that have been counted,
    wherever the link was stored and loaded in between. The induction is on the
    run. -/
theorem StoredRun.accounts {self last : ShareLink Utc} {times : List (DateTime Utc)}
    {served : List Bool} (h : StoredRun self times served last) :
    self.Accounts last (served.count true) := by
  induction h with
  | done => exact ⟨rfl, rfl, fun _ _ => Nat.le_max_left _ _⟩
  | change harrives _ ih =>
    rw [← agreesWith_of_arrives harrives] at ih
    exact ⟨ih.download_limit, ih.download_count, ih.within⟩
  | @step _ _ _ _ served _ _ hrequest _ ih =>
    obtain ⟨hlimit, hcount, hwithin⟩ := request_count hrequest
    refine ⟨ih.download_limit.trans hlimit, ?_, ?_⟩
    · rw [ih.download_count, hcount, List.count_cons]
      cases served with
      | true => simp only [Bool.toNat_true, beq_self_eq_true, if_true, Nat.add_comm, Nat.add_assoc]
      | false => rfl
    · intro limit hsome
      have hlast := ih.within limit (hlimit.trans hsome)
      have hnext := hwithin limit hsome
      omega

/-- However often a link is stored as text between requests, by a store that
    may even add a password of its own, it serves the same requests, no
    download is forgotten or counted twice, and the limit holds over the whole
    run. -/
theorem stored_run_spec {self last : ShareLink Utc} {times : List (DateTime Utc)}
    {served : List Bool} (h : StoredRun self times served last) :
    (∃ outcomes, self.requests times = .ok outcomes ∧ outcomes.map Prod.fst = served) ∧
      self.Accounts last (served.count true) := by
  obtain ⟨_, hrun, _⟩ := Changed.run_eq hides h (show self.AgreesWith self from rfl)
  exact ⟨requests_of_run hrun, StoredRun.accounts h⟩

end stored

/-- The link is stored before its last download, and once after, when it comes
    back with a password. -/
theorem expiring_link_stored_run :
    (∃ outcomes, expiring_link.requests [FirstMinute.second 10] = .ok outcomes ∧
      outcomes.map Prod.fst = [true]) ∧
    expiring_link.Accounts
      { expiring_link with password_hash := some "guess", download_count := 2 } 1 := by
  let _ := uuid.hyphenatedParser
  let _ := compact recursion_limit
  have harrives : ∀ {link other : ShareLink FirstMinute}, link.AgreesWith other → Arrives link other :=
    fun {link other} h =>
      (arrives_iff_of_nestsAtMost (share_link_recovers _) (link.nestsAtMost.mono (by decide)) other).mpr h
  have hrun : StoredRun expiring_link [FirstMinute.second 10] [true]
      { expiring_link with password_hash := some "guess", download_count := 2 } := by
    refine .change (harrives (show expiring_link.AgreesWith expiring_link from rfl))
      (.step rfl (.change (harrives ?_) (.done _)))
    rfl
  exact stored_run_spec hrun

end jiezi_cloud_core.models.share.ShareLink
