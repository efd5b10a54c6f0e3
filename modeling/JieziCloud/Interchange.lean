import JieziCloud.Events
import JieziCloud.Models.Task
import JieziCloud.Types.HealthStatus

open chrono jiezi_cloud_core.events jiezi_cloud_core.models.task jiezi_cloud_core.types json result serde

namespace jiezi_cloud_core

variable [TextFormat recursion_limit]

/-- Values of the type travel through any channel that keeps their members:
    each has a text, which no other value has, and every relaxed form of its
    document is decoded to the value, also when it is read from a text. -/
def Interchangeable (A : Type) [Serialize A] [Deserialize A] : Prop :=
  ∀ a : A, Rereads a (.ok a) ∧ (∀ other : A, to_string other = to_string a → other = a) ∧
    ∀ document relaxed, to_document a = .ok document → Relaxed document relaxed →
      deserialize relaxed = .ok a ∧
        ∀ text, TextFormat.parse recursion_limit text = .ok relaxed → from_str text = .ok a

/-- Surviving relaxation and nesting within the limit is all it takes: that no two
    values have one text follows from each being read back from its own. -/
theorem interchangeable_of_survives {A : Type} [Serialize A] [Deserialize A] [Survives Relaxed A]
    (hdepth : ∀ a : A, NestsAtMost serialize recursion_limit a) : Interchangeable A := by
  have hreads : ∀ a : A, Rereads a (.ok a) := by
    intro a
    obtain ⟨data, hdata, hdecode⟩ := Survives.survives (R := Relaxed) a
    rw [← hdecode _ (Relaxed.refl _)]
    exact rereads_of_nestsAtMost hdata (hdepth a)
  intro a
  refine ⟨hreads a, ?_, ?_⟩
  · intro other hsame
    obtain ⟨text, htext, hread⟩ := hreads a
    obtain ⟨text', htext', hread'⟩ := hreads other
    rw [hsame, htext, Except.ok.injEq] at htext'
    subst htext'
    rw [hread, Except.ok.injEq] at hread'
    exact hread'.symm
  · intro document relaxed hdocument hrelaxed
    obtain ⟨data, hdata, hdecode⟩ := Survives.survives (R := Relaxed) a
    rw [to_document_eq_ok hdata, Except.ok.injEq] at hdocument
    subst hdocument
    have hvalue := hdecode relaxed hrelaxed
    refine ⟨hvalue, ?_⟩
    intro text hparse
    rw [from_str, hparse]
    exact hvalue

/-- Events, tasks and health reports survive brokers and columns that reorder the
    members of their objects or add members of their own: each is read back as it
    was, from its own text and from whatever has become of it, and no two have one
    text. -/
theorem interchangeable (Utc : Type) [TimeLine Utc] [uuid.Parser] :
    Interchangeable DomainEvent ∧ Interchangeable (BackgroundTask Utc) ∧
      Interchangeable HealthStatus := by
  refine ⟨interchangeable_of_survives ?_, interchangeable_of_survives ?_,
    interchangeable_of_survives ?_⟩
  · intro event
    exact event.nestsAtMost.mono (by decide)
  · intro task
    exact task.nestsAtMost.mono (by decide)
  · intro status
    exact status.nestsAtMost.mono (by decide)

end jiezi_cloud_core
