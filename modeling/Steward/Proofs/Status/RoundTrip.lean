import Steward.Proofs.Document.Restores
import Steward.Proofs.Status.Condition
import Steward.Status.Basic

/-!
# Statuses are read back as they were written

A status whose points in time can be named (`Status.Dated`) is read back from the document that is
stored of it, so what a pass reads is what the last one wrote.
-/

namespace Steward

open Block

/-! ## 1. Points in time -/

/-- The time of the condition can be named. -/
def Condition.Dated (c : Condition) : Prop := ∀ t ∈ c.lastTransition, t.Valid

/-- The time of the report can be named. -/
def HealthSummary.Dated (h : HealthSummary) : Prop := ∀ t ∈ h.lastCheck, t.Valid

/-- The time of the registration can be named. -/
def RegistrationRecord.Dated (r : RegistrationRecord) : Prop := ∀ t ∈ r.lastSync, t.Valid

/-- All points in time of the status can be named. -/
structure Status.Dated (s : Status) : Prop where
  conditions : ∀ c ∈ s.conditions, c.Dated
  lastReconcile : ∀ t ∈ s.lastReconcile, t.Valid
  health : ∀ h ∈ s.health, h.Dated
  registration : ∀ r ∈ s.registration, r.Dated

theorem Status.dated_empty : ({} : Status).Dated := by
  constructor <;> simp

/-! ## 2. Parts of a status -/

section

variable [Validator] [Validator.Lawful]

instance : Condition.codec.Restores Condition.Dated := by
  unfold Condition.codec Condition.block
  exact Restores.codec inferInstance (of_decide_eq_true rfl) (by simp [Condition.Dated])
    (by simp [Condition.Dated]) _

instance : IssueSummary.codec.Restores fun _ => True := by
  unfold IssueSummary.codec IssueSummary.block
  exact Restores.codec inferInstance (of_decide_eq_true rfl) (by simp) (by simp) _

instance : HealthSummary.codec.Restores HealthSummary.Dated := by
  unfold HealthSummary.codec HealthSummary.block
  exact Restores.codec inferInstance (of_decide_eq_true rfl) (by simp [HealthSummary.Dated])
    (by simp +contextual [HealthSummary.Dated]) _

instance : RegistrationRecord.codec.Restores RegistrationRecord.Dated := by
  unfold RegistrationRecord.codec RegistrationRecord.block
  exact Restores.codec inferInstance (of_decide_eq_true rfl) (by simp [RegistrationRecord.Dated])
    (by simp +contextual [RegistrationRecord.Dated]) _

/-! ## 3. The whole -/

namespace Status

instance : codec.Restores Dated := by
  unfold codec block
  refine Restores.codec inferInstance (of_decide_eq_true rfl) (fun s h => ?_) ?_ _
  · simpa using ⟨⟨⟨h.conditions, h.lastReconcile⟩, h.health⟩, h.registration⟩
  · rintro conditions hconditions _ - _ - reconcile hreconcile _ - _ - health hhealth
      registration hregistration _ -
    refine ⟨fun c hc => ?_, hreconcile, hhealth, hregistration⟩
    rcases hconditions with hconditions | rfl
    · exact hconditions c hc
    · cases hc

omit [Validator.Lawful] in
theorem ofMembers_nil : ofMembers [] = .ok {} := rfl

/-- **What is stored of a status is read back.** -/
theorem ofMembers_toMembers {s : Status} (h : s.Dated) : ofMembers s.toMembers = .ok s := by
  have hread : codec.read (codec.write s) = .valid s := Codec.Restores.lawful.read_write s h
  exact congrArg (Checked.toExcept "ConfigStatus") hread

end Status

end

/-! ## 4. Conditions that are set -/

namespace Conditions

variable {cs : Conditions} {now : Timestamp}

theorem mem_put {c d : Condition} (h : d ∈ cs.put c) : d = c ∨ d ∈ cs := by
  rw [put] at h
  split at h
  · obtain ⟨d', hd', rfl⟩ := List.mem_map.mp h
    by_cases hc : d'.type = c.type
    · exact Or.inl (if_pos hc)
    · rw [if_neg hc]
      exact Or.inr hd'
  · rcases List.mem_append.mp h with h | h
    · exact Or.inr h
    · exact Or.inl (List.mem_singleton.mp h)

theorem valid_transitionTime (type status : String) (h : ∀ c ∈ cs, c.Dated) (hnow : now.Valid) :
    (cs.transitionTime type status now).Valid := by
  rw [transitionTime]
  split
  · rename_i c hc
    split
    · cases htime : c.lastTransition with
      | none => exact hnow
      | some t => exact h c (List.mem_of_find?_eq_some hc) t htime
    · exact hnow
  · exact hnow

/-- A condition that is set gets a point in time that was there, or the present one. -/
theorem dated_put {c : Condition} (h : ∀ d ∈ cs, d.Dated) (hnow : now.Valid)
    (hc : c.lastTransition = some (cs.transitionTime c.type c.status now)) :
    ∀ d ∈ cs.put c, d.Dated := by
  intro d hd
  rcases mem_put hd with rfl | hd
  · intro t ht
    rw [hc] at ht
    cases ht
    exact valid_transitionTime _ _ h hnow
  · exact h d hd

end Conditions

end Steward
