import Steward.Proofs.Store.Memory

/-!
# Keys of a store

No two resources of a store have the same key, so each is found under its own.  Every operation
keeps this, since all of them put and remove by key.  So what is listed is what is stored.
-/

namespace Steward.MemoryStore

variable {s : MemoryStore} {r stored : Resource} {kind ns name : String}

/-- Each resource is found under its own key. -/
def Keyed (s : MemoryStore) : Prop := ∀ r ∈ s.resources, s.find? r.kind r.ns r.name = some r

/-! ## 1. Operations -/

theorem Keyed.put (h : s.Keyed) (r : Resource) : (s.put r).Keyed := by
  intro q hq
  -- a resource that was there before is found as before if its key is another one
  have hother (hmem : q ∈ s.resources) (hne : ¬ sameKey r q = true) :
      (s.put r).find? q.kind q.ns q.name = some q := by
    rw [find?_put_of_ne s fun hat => hne (sameKey_iff.mpr ?_), h q hmem]
    exact ⟨hat.1.symm, hat.2.1.symm, hat.2.2.symm⟩
  rw [MemoryStore.put] at hq
  split at hq
  · obtain ⟨p, hp, rfl⟩ := List.mem_map.mp hq
    by_cases hsame : sameKey r p = true
    · rw [if_pos hsame]
      exact find?_put_self s r
    · rw [if_neg hsame] at hother ⊢
      exact hother hp hsame
  · rename_i hany
    rcases List.mem_append.mp hq with hq | hq
    · exact hother hq fun hsame => hany (List.any_eq_true.mpr ⟨q, hq, hsame⟩)
    · rw [List.mem_singleton.mp hq]
      exact find?_put_self s r

theorem Keyed.remove (h : s.Keyed) (kind ns name : String) : (s.remove kind ns name).Keyed := by
  intro q hq
  obtain ⟨hmem, hkept⟩ := List.mem_filter.mp hq
  rw [find?_remove_of_ne, h q hmem]
  rintro p ⟨h₁, h₂, h₃⟩ hp
  rw [Bool.not_eq_true', ← Bool.not_eq_true, isAt_iff, Resource.IsAt, ← h₁, ← h₂, ← h₃] at hkept
  exact hkept hp

theorem Keyed.updateStatus (h : s.Keyed) (r : Resource) (status : Json.Members) :
    (s.updateStatus r status).2.Keyed := by
  rw [MemoryStore.updateStatus]
  split
  · exact h
  · exact h.put _

theorem Keyed.addFinalizer (h : s.Keyed) (r : Resource) (finalizer : String) :
    (s.addFinalizer r finalizer).2.Keyed := by
  rw [MemoryStore.addFinalizer]
  split
  · exact h
  · exact h.put _

theorem Keyed.removeFinalizer (h : s.Keyed) (r : Resource) (finalizer : String) :
    (s.removeFinalizer r finalizer).2.Keyed := by
  rw [MemoryStore.removeFinalizer]
  split
  · exact h
  · dsimp only
    split
    · exact (h.put _).remove _ _ _
    · exact h.put _

theorem Keyed.setSpec (h : s.Keyed) (kind ns name : String) (spec : Json.Members) :
    (s.setSpec kind ns name spec).Keyed := by
  rw [MemoryStore.setSpec]
  split
  · exact h
  · exact h.put _

theorem Keyed.requestDeletion (h : s.Keyed) (kind ns name : String) (now : Timestamp) :
    (s.requestDeletion kind ns name now).Keyed := by
  rw [MemoryStore.requestDeletion]
  split
  · exact h
  · split
    · exact h.remove kind ns name
    · exact h.put _

/-! ## 2. Lists -/

theorem mem_resources_of_mem_list {ns : Option String} (h : r ∈ s.list kind ns) :
    r ∈ s.resources :=
  (List.mem_filter.mp (List.mem_mergeSort.mp h)).1

/-- What is listed is what is stored. -/
theorem Keyed.known_of_mem_list {ns : Option String} (h : s.Keyed) (hr : r ∈ s.list kind ns) :
    s.Known r :=
  known_of_find? (h r (mem_resources_of_mem_list hr))

end Steward.MemoryStore
