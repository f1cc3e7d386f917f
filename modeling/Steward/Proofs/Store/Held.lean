import Steward.Proofs.Store.Keyed

/-!
# What a store holds on to

A resource with a finalizer stays with it as long as nobody removes the finalizer: it is changed by
all other operations, and a deletion waits for it (`Held`).  Operations on finalizers and deletions
change neither the specification nor the status of what is stored.
-/

namespace Steward.MemoryStore

variable {s : MemoryStore} {r q before : Resource} {kind ns name finalizer other : String}

/-! ## 1. Finalizers -/

/-- The resource of this key is stored with the finalizer. -/
def Held (s : MemoryStore) (kind ns name finalizer : String) : Prop :=
  ∃ r, s.find? kind ns name = some r ∧ r.hasFinalizer finalizer = true

theorem Held.put (h : s.Held kind ns name finalizer)
    (hr : r.IsAt kind ns name → r.hasFinalizer finalizer = true) :
    (s.put r).Held kind ns name finalizer := by
  obtain ⟨q, hq, hheld⟩ := h
  by_cases hat : r.IsAt kind ns name
  · obtain ⟨rfl, rfl, rfl⟩ := hat
    exact ⟨r, find?_put_self s r, hr ⟨rfl, rfl, rfl⟩⟩
  · exact ⟨q, by rw [find?_put_of_ne s hat, hq], hheld⟩

/-- What replaces a stored resource keeps the finalizer if it has all finalizers of that one. -/
theorem Held.replace (h : s.Held kind ns name finalizer)
    (hbefore : s.find? before.kind before.ns before.name = some before)
    (hkey : r.IsAt before.kind before.ns before.name)
    (hfinalizers : before.hasFinalizer finalizer = true → r.hasFinalizer finalizer = true) :
    (s.put r).Held kind ns name finalizer := by
  refine h.put fun hat => hfinalizers ?_
  obtain ⟨q, hq, hheld⟩ := h
  obtain ⟨h₁, h₂, h₃⟩ := hkey
  obtain ⟨rfl, rfl, rfl⟩ := hat
  rw [h₁, h₂, h₃, hbefore, Option.some.injEq] at hq
  rwa [hq]

theorem find?_of_current (h : s.current r = .ok before) :
    s.find? before.kind before.ns before.name = some before := by
  obtain ⟨hfind, -⟩ := current_eq_ok h
  obtain ⟨h₁, h₂, h₃⟩ := isAt_of_find? hfind
  rwa [h₁, h₂, h₃]

theorem Held.written {status : Json.Members} (h : s.Held kind ns name finalizer)
    (hcurrent : s.current r = .ok before) :
    (s.put (written before status)).Held kind ns name finalizer :=
  h.replace (find?_of_current hcurrent) ⟨rfl, rfl, rfl⟩ id

theorem Held.addFinalizer (h : s.Held kind ns name finalizer) :
    (s.addFinalizer r other).2.Held kind ns name finalizer := by
  rw [MemoryStore.addFinalizer]
  cases hcurrent : s.current r with
  | error e => exact h
  | ok before =>
    refine h.replace (find?_of_current hcurrent) ⟨rfl, rfl, rfl⟩ fun hheld => ?_
    change (if before.hasFinalizer other then before.finalizers
      else before.finalizers ++ [other]).contains finalizer = true
    split
    · exact hheld
    · rw [List.contains_iff_mem]
      exact List.mem_append_left _ (List.contains_iff_mem.mp hheld)

theorem Held.requestDeletion {kind' ns' name' : String} {now : Timestamp}
    (h : s.Held kind ns name finalizer) :
    (s.requestDeletion kind' ns' name' now).Held kind ns name finalizer := by
  rw [MemoryStore.requestDeletion]
  cases hfind : s.find? kind' ns' name' with
  | none => exact h
  | some before =>
    obtain ⟨rfl, rfl, rfl⟩ := isAt_of_find? hfind
    dsimp only
    split
    · -- a resource without finalizers is another one
      rename_i hempty
      obtain ⟨q, hq, hheld⟩ := h
      refine ⟨q, ?_, hheld⟩
      rw [find?_remove_of_ne, hq]
      rintro p ⟨rfl, rfl, rfl⟩ ⟨h₁, h₂, h₃⟩
      rw [h₁, h₂, h₃, hfind, Option.some.injEq] at hq
      subst hq
      rw [List.isEmpty_iff] at hempty
      rw [Resource.hasFinalizer, hempty] at hheld
      cases hheld
    · exact h.replace hfind ⟨rfl, rfl, rfl⟩ id

theorem Held.create (h : s.Held kind ns name finalizer)
    (hr : s.find? r.kind r.ns r.name = none) : (s.create r).Held kind ns name finalizer := by
  refine Held.put h fun hat => ?_
  obtain ⟨q, hq, -⟩ := h
  obtain ⟨rfl, rfl, rfl⟩ := hat
  cases hr.symm.trans hq

/-! ## 2. Specifications and statuses -/

/-- The resources are the same but for finalizers, deletion, generation and version. -/
structure SameContent (q q' : Resource) : Prop where
  key : q'.IsAt q.kind q.ns q.name
  spec : q'.spec = q.spec
  status : q'.status = q.status

variable {P : Resource → Prop}

theorem forall_put (h : ∀ q ∈ s.resources, P q) (hr : P r) : ∀ q ∈ (s.put r).resources, P q := by
  intro q hq
  rw [MemoryStore.put] at hq
  split at hq
  · obtain ⟨p, hp, rfl⟩ := List.mem_map.mp hq
    split
    · exact hr
    · exact h p hp
  · rcases List.mem_append.mp hq with hq | hq
    · exact h q hq
    · rwa [List.mem_singleton.mp hq]

theorem forall_remove (h : ∀ q ∈ s.resources, P q) :
    ∀ q ∈ (s.remove kind ns name).resources, P q :=
  fun q hq => h q (List.mem_filter.mp hq).1

theorem mem_of_find? (h : s.find? kind ns name = some r) : r ∈ s.resources :=
  List.mem_of_find?_eq_some h

variable (hP : ∀ q q', SameContent q q' → P q → P q')

include hP

theorem forall_replace (h : ∀ q ∈ s.resources, P q) (hbefore : before ∈ s.resources)
    (hr : SameContent before r) : ∀ q ∈ (s.put r).resources, P q :=
  forall_put h (hP _ _ hr (h _ hbefore))

theorem forall_addFinalizer (h : ∀ q ∈ s.resources, P q) :
    ∀ q ∈ (s.addFinalizer r finalizer).2.resources, P q := by
  rw [MemoryStore.addFinalizer]
  cases hcurrent : s.current r with
  | error e => exact h
  | ok before =>
    exact forall_replace hP h (mem_of_find? (find?_of_current hcurrent)) ⟨⟨rfl, rfl, rfl⟩, rfl, rfl⟩

theorem forall_removeFinalizer (h : ∀ q ∈ s.resources, P q) :
    ∀ q ∈ (s.removeFinalizer r finalizer).2.resources, P q := by
  rw [MemoryStore.removeFinalizer]
  cases hcurrent : s.current r with
  | error e => exact h
  | ok before =>
    have hbump := forall_replace hP h (mem_of_find? (find?_of_current hcurrent))
      (r := { before with finalizers := before.finalizers.filter (· != finalizer)
                          version := before.version + 1 }) ⟨⟨rfl, rfl, rfl⟩, rfl, rfl⟩
    dsimp only [bump]
    split
    · exact forall_remove hbump
    · exact hbump

theorem forall_requestDeletion {now : Timestamp} (h : ∀ q ∈ s.resources, P q) :
    ∀ q ∈ (s.requestDeletion kind ns name now).resources, P q := by
  rw [MemoryStore.requestDeletion]
  cases hfind : s.find? kind ns name with
  | none => exact h
  | some before =>
    dsimp only
    split
    · exact forall_remove h
    · exact forall_replace hP h (mem_of_find? hfind) ⟨⟨rfl, rfl, rfl⟩, rfl, rfl⟩

end Steward.MemoryStore
