import Steward.Proofs.Diff.Section

/-!
# A service that change sets are applied to

The service keeps a list of items per kind and does what a change asks for: a created item goes to
the end of its list, an updated one takes the place of every item of its key, and a deletion removes
every item of the key.  What is found under a kind and a key depends on the changes of that target
alone (`slot`), and an exact change set has one at most.  So each target can be followed through all
three phases by itself (`lastNamed_apply`).
-/

namespace Steward

open Diff

/-- The items of each kind, in order. -/
abbrev Service := Section → List Item

namespace Service

/-! ## 1. Changes -/

/-- Change the list of one kind. -/
def modify (s : Service) (kind : Section) (f : List Item → List Item) : Service :=
  fun k => if k = kind then f (s k) else s k

def create (s : Service) (c : Change) : Service :=
  s.modify c.kind fun items => items ++ c.payload.toList

def update (s : Service) (c : Change) : Service :=
  s.modify c.kind fun items =>
    items.map fun item => if item.key = c.name then c.payload.getD item else item

def delete (s : Service) (c : Change) : Service :=
  s.modify c.kind fun items => items.filter fun item => item.key != c.name

/-- Apply the changes in order: creations, updates, deletions. -/
def apply (s : Service) (cs : ChangeSet) : Service :=
  cs.deletes.foldl delete (cs.updates.foldl update (cs.creates.foldl create s))

/-! ## 2. What a change does to the items of one key -/

/-- The items of a kind and a key. -/
def slot (s : Service) (t : Section × String) : List Item :=
  (s t.1).filter fun item => item.key == t.2

/-- The change carries an item of the key that it names. -/
def CarriesOwn (c : Change) : Prop := ∀ item ∈ c.payload, item.key = c.name

theorem slot_modify_of_ne {s : Service} {kind : Section} {f : List Item → List Item}
    {t : Section × String} (h : t.1 ≠ kind) : (s.modify kind f).slot t = s.slot t := by
  rw [slot, modify, if_neg h, slot]

theorem slot_create {c : Change} (hc : CarriesOwn c) (s : Service) (t : Section × String) :
    (s.create c).slot t = if target c = t then s.slot t ++ c.payload.toList else s.slot t := by
  obtain ⟨kind, name⟩ := t
  by_cases hk : kind = c.kind
  · subst hk
    by_cases hn : c.name = name
    · subst hn
      have hall : c.payload.toList.filter (fun item => item.key == c.name) = c.payload.toList := by
        rw [List.filter_eq_self]
        intro item hitem
        exact beq_iff_eq.mpr (hc item (Option.mem_toList.mp hitem))
      simp [slot, create, modify, target, hall]
    · have hnone : c.payload.toList.filter (fun item => item.key == name) = [] := by
        rw [List.filter_eq_nil_iff]
        intro item hitem
        rw [hc item (Option.mem_toList.mp hitem)]
        simpa using hn
      simp [slot, create, modify, target, hn, hnone]
  · rw [create, slot_modify_of_ne hk, if_neg]
    rintro h
    exact hk (congrArg Prod.fst h).symm

theorem slot_update {c : Change} (hc : CarriesOwn c) (s : Service) (t : Section × String) :
    (s.update c).slot t =
      if target c = t then (s.slot t).map fun item => c.payload.getD item else s.slot t := by
  obtain ⟨kind, name⟩ := t
  by_cases hk : kind = c.kind
  · subst hk
    -- the key of an item does not change: the new item has the key of the one it replaces
    have hkey : ∀ item : Item,
        (if item.key = c.name then c.payload.getD item else item).key = item.key := by
      intro item
      split
      · rename_i h
        cases hp : c.payload with
        | none => rfl
        | some new => exact (hc new hp).trans h.symm
      · rfl
    simp only [slot, update, modify, if_true, List.filter_map, Function.comp_def, hkey]
    by_cases hn : c.name = name
    · subst hn
      have ht : target c = (c.kind, c.name) := rfl
      rw [if_pos ht]
      refine List.map_congr_left fun item hitem => ?_
      rw [if_pos (beq_iff_eq.mp (List.mem_filter.mp hitem).2)]
    · rw [if_neg fun h => hn (congrArg Prod.snd h)]
      conv_rhs => rw [← List.map_id (List.filter _ _)]
      refine List.map_congr_left fun item hitem => ?_
      rw [if_neg, id]
      rw [beq_iff_eq.mp (List.mem_filter.mp hitem).2]
      exact Ne.symm hn
  · rw [update, slot_modify_of_ne hk, if_neg]
    rintro h
    exact hk (congrArg Prod.fst h).symm

theorem slot_delete (c : Change) (s : Service) (t : Section × String) :
    (s.delete c).slot t = if target c = t then [] else s.slot t := by
  obtain ⟨kind, name⟩ := t
  by_cases hk : kind = c.kind
  · subst hk
    simp only [slot, delete, modify, if_true, List.filter_filter]
    by_cases hn : c.name = name
    · subst hn
      have ht : target c = (c.kind, c.name) := rfl
      rw [if_pos ht, List.filter_eq_nil_iff]
      intro item _
      simp
    · rw [if_neg fun h => hn (congrArg Prod.snd h)]
      refine List.filter_congr fun item _ => ?_
      by_cases h : item.key = name
      · simp [h, Ne.symm hn]
      · simp [h]
  · rw [delete, slot_modify_of_ne hk, if_neg]
    rintro h
    exact hk (congrArg Prod.fst h).symm

/-! ## 3. What a list of changes does to the items of one key -/

/-- For these changes the operation does something to the slot of the change's target, and nothing
to any other. -/
def Local (op : Service → Change → Service) (effect : Change → List Item → List Item)
    (cs : List Change) : Prop :=
  ∀ c ∈ cs, ∀ s t,
    (op s c).slot t = if target c = t then effect c (s.slot t) else s.slot t

section Phase

variable {op : Service → Change → Service} {effect : Change → List Item → List Item}

theorem Local.tail {c : Change} {cs : List Change} (h : Local op effect (c :: cs)) :
    Local op effect cs := fun d hd => h d (List.mem_cons_of_mem _ hd)

/-- Changes of other targets leave a slot alone. -/
theorem Local.slot_foldl_of_forall_ne {t : Section × String} :
    ∀ {cs : List Change} (_ : Local op effect cs) (s : Service), (∀ c ∈ cs, target c ≠ t) →
      (cs.foldl op s).slot t = s.slot t
  | [], _, _, _ => rfl
  | c :: cs, h, s, hne => by
    rw [List.foldl_cons,
      h.tail.slot_foldl_of_forall_ne _ fun d hd => hne d (List.mem_cons_of_mem _ hd),
      h c List.mem_cons_self, if_neg (hne c List.mem_cons_self)]

/-- Among changes of different targets, only the one of its own target does something to a slot. -/
theorem Local.slot_foldl_of_mem {c : Change} :
    ∀ {cs : List Change} (_ : Local op effect cs) (s : Service), (cs.map target).Nodup → c ∈ cs →
      (cs.foldl op s).slot (target c) = effect c (s.slot (target c))
  | [], _, _, _, hc => absurd hc List.not_mem_nil
  | d :: cs, h, s, hnodup, hc => by
    rw [List.map_cons, List.nodup_cons] at hnodup
    rw [List.foldl_cons]
    rcases List.mem_cons.mp hc with rfl | hc
    · rw [h.tail.slot_foldl_of_forall_ne, h c List.mem_cons_self, if_pos rfl]
      intro e he heq
      exact hnodup.1 (heq ▸ List.mem_map_of_mem he)
    · have hne : target d ≠ target c := fun heq => hnodup.1 (heq ▸ List.mem_map_of_mem hc)
      rw [h.tail.slot_foldl_of_mem _ hnodup.2 hc, h d List.mem_cons_self, if_neg hne]

end Phase

/-! ## 4. What a change set does to the items of one key -/

section Apply

variable {cs : ChangeSet}

/-- The targets of all changes are different, and what they carry is of the key that they name. -/
structure Tidy (cs : ChangeSet) : Prop where
  nodup : (cs.all.map target).Nodup
  carriesOwn : ∀ c ∈ cs.all, CarriesOwn c

theorem mem_all {c : Change} :
    c ∈ cs.all ↔ c ∈ cs.creates ∨ c ∈ cs.updates ∨ c ∈ cs.deletes := by
  rw [ChangeSet.all, List.mem_append, List.mem_append, or_assoc]

theorem Tidy.local_create (h : Tidy cs) :
    Local create (fun c items => items ++ c.payload.toList) cs.creates :=
  fun c hc => slot_create (h.carriesOwn c (mem_all.mpr (.inl hc)))

theorem Tidy.local_update (h : Tidy cs) :
    Local update (fun c items => items.map fun item => c.payload.getD item) cs.updates :=
  fun c hc => slot_update (h.carriesOwn c (mem_all.mpr (.inr (.inl hc))))

theorem local_delete (cs : List Change) : Local delete (fun _ _ => []) cs :=
  fun c _ => slot_delete c

/-- The three groups have different targets. -/
theorem Tidy.target_ne (h : Tidy cs) :
    (cs.creates.map target).Nodup ∧ (cs.updates.map target).Nodup ∧
      (cs.deletes.map target).Nodup ∧
      (∀ c ∈ cs.creates, ∀ d ∈ cs.updates, target c ≠ target d) ∧
      (∀ c ∈ cs.creates, ∀ d ∈ cs.deletes, target c ≠ target d) ∧
      (∀ c ∈ cs.updates, ∀ d ∈ cs.deletes, target c ≠ target d) := by
  have hnodup := h.nodup
  rw [ChangeSet.all, List.map_append, List.map_append, List.nodup_append, List.nodup_append]
    at hnodup
  obtain ⟨⟨hc, hu, hcu⟩, hd, hcud⟩ := hnodup
  refine ⟨hc, hu, hd, fun c hc d hd => ?_, fun c hc d hd => ?_, fun c hc d hd => ?_⟩
  · exact hcu _ (List.mem_map_of_mem hc) _ (List.mem_map_of_mem hd)
  · exact hcud _ (List.mem_append_left _ (List.mem_map_of_mem hc)) _ (List.mem_map_of_mem hd)
  · exact hcud _ (List.mem_append_right _ (List.mem_map_of_mem hc)) _ (List.mem_map_of_mem hd)

theorem Tidy.slot_apply_of_mem_creates (h : Tidy cs) (s : Service) {c : Change}
    (hc : c ∈ cs.creates) :
    (s.apply cs).slot (target c) = s.slot (target c) ++ c.payload.toList := by
  obtain ⟨hnodup, -, -, hcu, hcd, -⟩ := h.target_ne
  rw [apply, (local_delete _).slot_foldl_of_forall_ne _ fun d hd => (hcd c hc d hd).symm,
    h.local_update.slot_foldl_of_forall_ne _ fun d hd => (hcu c hc d hd).symm,
    h.local_create.slot_foldl_of_mem _ hnodup hc]

theorem Tidy.slot_apply_of_mem_updates (h : Tidy cs) (s : Service) {c : Change}
    (hc : c ∈ cs.updates) :
    (s.apply cs).slot (target c) =
      (s.slot (target c)).map fun item => c.payload.getD item := by
  obtain ⟨-, hnodup, -, hcu, -, hud⟩ := h.target_ne
  rw [apply, (local_delete _).slot_foldl_of_forall_ne _ fun d hd => (hud c hc d hd).symm,
    h.local_update.slot_foldl_of_mem _ hnodup hc,
    h.local_create.slot_foldl_of_forall_ne _ fun d hd => hcu d hd c hc]

theorem Tidy.slot_apply_of_mem_deletes (h : Tidy cs) (s : Service) {c : Change}
    (hc : c ∈ cs.deletes) : (s.apply cs).slot (target c) = [] := by
  obtain ⟨-, -, hnodup, -, -, -⟩ := h.target_ne
  rw [apply, (local_delete _).slot_foldl_of_mem _ hnodup hc]

theorem Tidy.slot_apply_of_forall_ne (h : Tidy cs) (s : Service) {t : Section × String}
    (hne : ∀ c ∈ cs.all, target c ≠ t) : (s.apply cs).slot t = s.slot t := by
  rw [apply,
    (local_delete _).slot_foldl_of_forall_ne _ fun d hd => hne d (mem_all.mpr (.inr (.inr hd))),
    h.local_update.slot_foldl_of_forall_ne _ fun d hd => hne d (mem_all.mpr (.inr (.inl hd))),
    h.local_create.slot_foldl_of_forall_ne _ fun d hd => hne d (mem_all.mpr (.inl hd))]

end Apply

end Service

end Steward
