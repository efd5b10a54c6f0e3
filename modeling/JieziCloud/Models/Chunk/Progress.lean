import JieziCloud.Binary64.Quotient
import JieziCloud.Models.Chunk

open binary64

namespace jiezi_cloud_core.models.chunk.UploadSession

variable {Utc : Type}

/-- An upload of no chunks counts as finished, without dividing by zero. -/
theorem progress_of_zero {self : UploadSession Utc} (h : self.total_chunks = 0) :
    self.progress = 1.0 := by
  rw [progress, if_pos h]

/-- Otherwise the progress is the rounded quotient of the two counts, and not
    limited in any way. -/
theorem progress_of_pos {self : UploadSession Utc} (h : 0 < self.total_chunks.toNat) :
    self.progress = self.completed_chunks.toFloat / self.total_chunks.toFloat := by
  have hne : self.total_chunks ≠ 0 := by
    intro hzero
    rw [hzero] at h
    exact absurd h (by decide)
  rw [progress, if_neg hne]

/-- An upload is complete when the counts are equal. More chunks than expected do
    not complete it. -/
theorem is_complete_iff (self : UploadSession Utc) :
    self.is_complete = true ↔ self.completed_chunks = self.total_chunks := by
  rw [is_complete, beq_iff_eq]

/-- The fraction is never negative, and it is one when and only when no chunk is
    missing. It leaves the range exactly when more chunks are counted than are
    expected, and among sessions of one total it orders them like their counts. -/
theorem progress_spec (self : UploadSession Utc) :
    0.0 ≤ self.progress ∧
      (self.progress = 0.0 ↔ self.completed_chunks = 0 ∧ self.total_chunks ≠ 0) ∧
      (self.progress = 1.0 ↔ self.is_complete = true ∨ self.total_chunks = 0) ∧
      (self.progress ≤ 1.0 ↔ self.completed_chunks ≤ self.total_chunks ∨ self.total_chunks = 0) ∧
      ∀ other : UploadSession Utc, other.total_chunks = self.total_chunks →
        (self.progress < other.progress ↔
          self.completed_chunks < other.completed_chunks ∧ self.total_chunks ≠ 0) := by
  obtain hzero | hpos := Nat.eq_zero_or_pos self.total_chunks.toNat
  · have htotal : self.total_chunks = 0 := UInt32.toNat_inj.mp hzero
    have hone : 0 < (1 : UInt32).toNat := by decide
    have hself : self.progress = (1 : UInt32).toFloat / (1 : UInt32).toFloat := by
      rw [progress_of_zero htotal, toFloat_div_self hone]
    simp only [htotal, ne_eq, not_true_eq_false, and_false, or_true, iff_true]
    refine ⟨?_, ?_, progress_of_zero htotal, ?_, ?_⟩
    · rw [hself]
      exact zero_le_toFloat_div 1 hone
    · rw [hself, toFloat_div_eq_zero_iff 1 hone]
      decide
    · rw [hself, toFloat_div_le_one_iff 1 hone]
      exact UInt32.le_refl 1
    · intro other hother
      rw [progress_of_zero htotal, progress_of_zero hother, ← toFloat_div_self hone,
        toFloat_div_lt_iff 1 1 hone]
      decide
  · have hne : self.total_chunks ≠ 0 := by
      intro htotal
      rw [htotal] at hpos
      exact absurd hpos (by decide)
    simp only [hne, ne_eq, not_false_eq_true, and_true, or_false]
    rw [progress_of_pos hpos]
    refine ⟨zero_le_toFloat_div _ hpos, toFloat_div_eq_zero_iff _ hpos, ?_,
      toFloat_div_le_one_iff _ hpos, ?_⟩
    · rw [self.is_complete_iff]
      exact toFloat_div_eq_one_iff _ hpos
    · intro other hother
      rw [progress_of_pos (hother ▸ hpos), hother]
      exact toFloat_div_lt_iff _ _ hpos

end jiezi_cloud_core.models.chunk.UploadSession
