import Steward.Store.Memory

/-!
# How a store moves

Every operation of a store leaves what is stored under a key as it was, removes it, or replaces it
by a resource of a higher version (`Moves`).  So a resource that was read at some time (`Known`) is
the stored one or of a lower version, and a write that is based on its version finds what was read.
-/

namespace Steward

/-- The resource is the one of this key. -/
def Resource.IsAt (r : Resource) (kind ns name : String) : Prop :=
  r.kind = kind ∧ r.ns = ns ∧ r.name = name

instance (r : Resource) (kind ns name : String) : Decidable (r.IsAt kind ns name) := by
  unfold Resource.IsAt
  infer_instance

theorem Resource.IsAt.trans {q r : Resource} {kind ns name : String}
    (h : r.IsAt q.kind q.ns q.name) (k : q.IsAt kind ns name) : r.IsAt kind ns name :=
  ⟨h.1.trans k.1, h.2.1.trans k.2.1, h.2.2.trans k.2.2⟩

namespace MemoryStore

variable {s s' : MemoryStore} {r stored : Resource} {kind ns name : String}

/-! ## 1. Keys -/

theorem isAt_iff : (r.kind == kind && r.ns == ns && r.name == name) = true ↔
    r.IsAt kind ns name := by
  rw [Bool.and_eq_true, Bool.and_eq_true, beq_iff_eq, beq_iff_eq, beq_iff_eq, and_assoc]
  rfl

theorem sameKey_iff {a b : Resource} : sameKey a b = true ↔ b.IsAt a.kind a.ns a.name := by
  rw [sameKey, isAt_iff]
  exact ⟨fun ⟨h₁, h₂, h₃⟩ => ⟨h₁.symm, h₂.symm, h₃.symm⟩,
    fun ⟨h₁, h₂, h₃⟩ => ⟨h₁.symm, h₂.symm, h₃.symm⟩⟩

theorem isAt_of_find? (h : s.find? kind ns name = some r) : r.IsAt kind ns name :=
  isAt_iff.mp (@List.find?_some Resource _ r s.resources h)

/-! ## 2. Putting and removing -/

theorem find?_put_self (s : MemoryStore) (r : Resource) :
    (s.put r).find? r.kind r.ns r.name = some r := by
  have hself : (r.kind == r.kind && r.ns == r.ns && r.name == r.name) = true :=
    isAt_iff.mpr ⟨rfl, rfl, rfl⟩
  rw [put, find?]
  split
  · rename_i hany
    -- the first resource of the key is replaced
    generalize s.resources = rs at hany
    induction rs with
    | nil => cases hany
    | cons q rs ih =>
      rw [List.map_cons, List.find?_cons]
      by_cases hq : sameKey r q = true
      · rw [if_pos hq, hself]
      · have hq' : (q.kind == r.kind && q.ns == r.ns && q.name == r.name) = false := by
          rw [← Bool.not_eq_true, isAt_iff]
          exact fun h => hq (sameKey_iff.mpr h)
        rw [if_neg hq, hq']
        refine ih ?_
        rw [List.any_cons, Bool.or_eq_true] at hany
        exact hany.resolve_left hq
  · rename_i hany
    have hnone : s.resources.find? (fun q => q.kind == r.kind && q.ns == r.ns && q.name == r.name) =
        none := by
      rw [List.find?_eq_none]
      intro q hq h
      exact hany (List.any_eq_true.mpr ⟨q, hq, sameKey_iff.mpr (isAt_iff.mp h)⟩)
    rw [List.find?_append, hnone, Option.none_or, List.find?_cons, hself]

theorem find?_put_of_ne (s : MemoryStore) (h : ¬ r.IsAt kind ns name) :
    (s.put r).find? kind ns name = s.find? kind ns name := by
  have hr : (r.kind == kind && r.ns == ns && r.name == name) = false := by
    rw [← Bool.not_eq_true, isAt_iff]
    exact h
  rw [put, find?]
  split
  · rw [find?]
    induction s.resources with
    | nil => rfl
    | cons q rs ih =>
      rw [List.map_cons, List.find?_cons, List.find?_cons]
      by_cases hq : sameKey r q = true
      · -- neither the old nor the new one is of the other key
        obtain ⟨h₁, h₂, h₃⟩ := sameKey_iff.mp hq
        rw [if_pos hq, hr, h₁, h₂, h₃, hr]
        exact ih
      · rw [if_neg hq, ih]
  · rw [List.find?_append, List.find?_cons, hr, List.find?_nil, Option.or_none]
    rfl

/-- Removing what is under a key is not seen under another. -/
theorem find?_remove_of_ne {kind' ns' name' : String}
    (h : ∀ q : Resource, q.IsAt kind ns name → ¬ q.IsAt kind' ns' name') :
    (s.remove kind' ns' name').find? kind ns name = s.find? kind ns name := by
  rw [remove, find?, List.find?_filter, find?]
  congr 1
  funext q
  rw [Bool.eq_iff_iff, decide_eq_true_eq, Bool.not_eq_true', ← Bool.not_eq_true, isAt_iff, isAt_iff]
  exact ⟨And.right, fun hq => ⟨h q hq, hq⟩⟩

theorem find?_of_find?_remove {kind' ns' name' : String}
    (h : (s.remove kind' ns' name').find? kind ns name = some r) :
    s.find? kind ns name = some r := by
  have hr := isAt_of_find? h
  have hkept := h
  rw [remove, find?, List.find?_filter] at hkept
  have hkept := List.find?_some hkept
  simp only [Bool.not_eq_true', decide_eq_true_eq] at hkept
  -- the key is another one, so no resource of it was removed
  rwa [find?_remove_of_ne] at h
  rintro q ⟨rfl, rfl, rfl⟩ ⟨rfl, rfl, rfl⟩
  rw [isAt_iff.mpr hr] at hkept
  exact Bool.noConfusion hkept.1

/-! ## 3. Moves -/

/-- What is stored under a key afterwards was stored before, or replaces what was stored by a higher
version in the way of `P`. -/
def Moves (P : Resource → Resource → Prop) (s s' : MemoryStore) : Prop :=
  ∀ (kind ns name : String) (after : Resource), s'.find? kind ns name = some after →
    ∃ before, s.find? kind ns name = some before ∧
      (after = before ∨ before.version < after.version ∧ P before after)

variable {P : Resource → Resource → Prop}

theorem Moves.refl (P : Resource → Resource → Prop) (s : MemoryStore) : Moves P s s :=
  fun _ _ _ after h => ⟨after, h, Or.inl rfl⟩

theorem moves_put (hfind : s.find? r.kind r.ns r.name = some stored)
    (hversion : stored.version < r.version) (hP : P stored r) : Moves P s (s.put r) := by
  intro kind ns name after h
  by_cases hr : r.IsAt kind ns name
  · obtain ⟨rfl, rfl, rfl⟩ := hr
    rw [find?_put_self, Option.some.injEq] at h
    exact ⟨stored, hfind, Or.inr (h ▸ ⟨hversion, hP⟩)⟩
  · rw [find?_put_of_ne s hr] at h
    exact ⟨after, h, Or.inl rfl⟩

/-- A stored resource that was changed under its key. -/
theorem moves_bump {r' : Resource} (hfind : s.find? kind ns name = some stored)
    (hr' : r'.IsAt stored.kind stored.ns stored.name) (hversion : r'.version = stored.version)
    (hP : P stored { r' with version := r'.version + 1 }) : Moves P s (s.bump r').2 := by
  obtain ⟨h₁, h₂, h₃⟩ := isAt_of_find? hfind
  obtain ⟨h₁', h₂', h₃'⟩ := hr'
  refine @moves_put s _ stored P ?_ ?_ hP
  · rw [h₁', h₂', h₃', h₁, h₂, h₃]
    exact hfind
  · rw [hversion]
    exact Int.lt_add_one_of_le (Int.le_refl _)

theorem moves_remove (kind ns name : String) : Moves P s (s.remove kind ns name) :=
  fun _ _ _ after h => ⟨after, find?_of_find?_remove h, Or.inl rfl⟩

theorem Moves.trans {s'' : MemoryStore} (h : Moves P s s') (h' : Moves P s' s'')
    (htrans : ∀ a b c, P a b → P b c → P a c) : Moves P s s'' := by
  intro kind ns name after hafter
  obtain ⟨mid, hmid, hP'⟩ := h' _ _ _ _ hafter
  obtain ⟨before, hbefore, hP⟩ := h _ _ _ _ hmid
  refine ⟨before, hbefore, ?_⟩
  rcases hP' with rfl | ⟨hlt', hP'⟩
  · exact hP
  · rcases hP with rfl | ⟨hlt, hP⟩
    · exact Or.inr ⟨hlt', hP'⟩
    · exact Or.inr ⟨Int.lt_trans hlt hlt', htrans _ _ _ hP hP'⟩

theorem Moves.mono {Q : Resource → Resource → Prop} (h : Moves P s s') (hPQ : ∀ a b, P a b → Q a b) :
    Moves Q s s' := by
  intro kind ns name after hafter
  obtain ⟨before, hbefore, hP⟩ := h _ _ _ _ hafter
  exact ⟨before, hbefore, hP.imp_right fun ⟨hlt, hP⟩ => ⟨hlt, hPQ _ _ hP⟩⟩

/-! ## 4. Operations -/

/-- The resource keeps its status. -/
def SameStatus (before after : Resource) : Prop := after.status = before.status

theorem current_eq_ok (h : s.current r = .ok stored) :
    s.find? r.kind r.ns r.name = some stored ∧ stored.version = r.version := by
  rw [current] at h
  split at h
  · rename_i found hfound
    split at h
    · rename_i hversion
      cases h
      exact ⟨hfound, hversion⟩
    · cases h
  · cases h

/-- The resource after its status was written. -/
def written (stored : Resource) (status : Json.Members) : Resource :=
  { stored with status, version := stored.version + 1 }

theorem updateStatus_of_current {status : Json.Members} (h : s.current r = .ok stored) :
    s.updateStatus r status = (.ok (written stored status), s.put (written stored status)) := by
  simp only [updateStatus, h]
  rfl

theorem moves_written {status : Json.Members} (h : s.current r = .ok stored) :
    Moves (fun _ _ => True) s (s.put (written stored status)) :=
  @moves_bump s stored _ _ _ _ { stored with status } (current_eq_ok h).1 ⟨rfl, rfl, rfl⟩ rfl
    trivial

theorem moves_addFinalizer (s : MemoryStore) (r : Resource) (finalizer : String) :
    Moves SameStatus s (s.addFinalizer r finalizer).2 := by
  rw [addFinalizer]
  cases h : s.current r with
  | error e => exact Moves.refl _ s
  | ok stored =>
    dsimp only
    exact moves_bump (current_eq_ok h).1 ⟨rfl, rfl, rfl⟩ rfl rfl

theorem moves_removeFinalizer (s : MemoryStore) (r : Resource) (finalizer : String) :
    Moves SameStatus s (s.removeFinalizer r finalizer).2 := by
  rw [removeFinalizer]
  cases h : s.current r with
  | error e => exact Moves.refl _ s
  | ok stored =>
    have hbump : Moves SameStatus s (s.bump
        { stored with finalizers := stored.finalizers.filter (· != finalizer) }).2 :=
      moves_bump (current_eq_ok h).1 ⟨rfl, rfl, rfl⟩ rfl rfl
    dsimp only
    split
    · exact hbump.trans (moves_remove _ _ _) fun _ _ _ hab hbc => hbc.trans hab
    · exact hbump

theorem moves_setSpec (s : MemoryStore) (kind ns name : String) (spec : Json.Members) :
    Moves SameStatus s (s.setSpec kind ns name spec) := by
  rw [setSpec]
  split
  · exact Moves.refl _ s
  · rename_i stored hfind
    exact moves_bump hfind ⟨rfl, rfl, rfl⟩ rfl rfl

theorem moves_requestDeletion (s : MemoryStore) (kind ns name : String) (now : Timestamp) :
    Moves SameStatus s (s.requestDeletion kind ns name now) := by
  rw [requestDeletion]
  split
  · exact Moves.refl _ s
  · rename_i stored hfind
    split
    · exact moves_remove kind ns name
    · exact moves_bump hfind ⟨rfl, rfl, rfl⟩ rfl rfl

/-! ## 5. What was read -/

/-- The resource was read from the store at some time: it is the one that is stored now, or the
stored one is of a higher version. -/
def Known (s : MemoryStore) (r : Resource) : Prop :=
  ∀ stored, s.find? r.kind r.ns r.name = some stored → stored = r ∨ r.version < stored.version

theorem known_of_find? (h : s.find? kind ns name = some r) : s.Known r := by
  intro stored hstored
  obtain ⟨rfl, rfl, rfl⟩ := isAt_of_find? h
  rw [h, Option.some.injEq] at hstored
  exact Or.inl hstored.symm

theorem Known.moves (h : s.Known r) (hs : Moves P s s') : s'.Known r := by
  intro after hafter
  obtain ⟨before, hbefore, hmove⟩ := hs _ _ _ _ hafter
  rcases h before hbefore with rfl | hlt
  · exact hmove.imp_right And.left
  · rcases hmove with rfl | ⟨hlt', -⟩
    · exact Or.inr hlt
    · exact Or.inr (Int.lt_trans hlt hlt')

/-- A write that is not refused finds the resource that it is based on. -/
theorem Known.eq_of_current (h : s.Known r) (hcurrent : s.current r = .ok stored) : stored = r := by
  obtain ⟨hfind, hversion⟩ := current_eq_ok hcurrent
  refine (h stored hfind).resolve_right ?_
  rw [hversion]
  exact Int.lt_irrefl _

end MemoryStore

end Steward
