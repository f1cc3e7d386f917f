import Mathlib.Data.Set.List
import Steward.Proofs.Diff.Exact
import Steward.Proofs.Diff.Service

/-!
# Applying a difference leaves no difference

A change set that is exact for what a service holds settles every key of every kind that is
supported: what is found under the key afterwards needs no further change (`settled`).  So a service
that the difference to a desired configuration (`diff_ir`) was applied to shows no difference to it
any more (`diff_converges`), whatever it held before.
-/

namespace Steward

open Diff

variable {caps : Capabilities} {ids : ItemIds} {mode : Section → Mode}

/-! ## 1. Settled keys -/

/-- What is found under a key once the changes for it are applied, from what was observed and what
is desired. -/
def settled (mode : Mode) (seen want : Option Item) : Option Item :=
  match seen, want with
  | none, want => want
  | some old, some item => if mode = .createOnly ∨ old.Agree item then some old else some item
  | some old, none => if mode = .full then none else some old

theorem settled_ne_none (mode : Mode) (seen : Option Item) (item : Item) :
    settled mode seen (some item) ≠ none := by
  cases seen with
  | none => simp [settled]
  | some old =>
    rw [settled]
    split <;> simp

theorem settled_agree {mode : Mode} {seen : Option Item} {item found : Item}
    (hm : mode ≠ .createOnly) (h : settled mode seen (some item) = some found) :
    found.Agree item := by
  cases seen with
  | none =>
    rw [settled, Option.some.injEq] at h
    rw [h]
    exact Item.Agree.refl found
  | some old =>
    rw [settled] at h
    split at h
    · rename_i hor
      rw [Option.some.injEq] at h
      exact h ▸ hor.resolve_left hm
    · rw [Option.some.injEq] at h
      rw [h]
      exact Item.Agree.refl found

theorem settled_full_none (seen : Option Item) : settled .full seen none = none := by
  cases seen <;> rfl

namespace Diff

/-- Where every key is settled, nothing is to be changed. -/
theorem Exact.isEmpty_of_settled (seen : Section → List Item) {want found : Section → List Item}
    {cs : ChangeSet} (h : Exact caps ids mode found want cs)
    (hs : ∀ kind, caps.supports kind = true → ∀ name, lastNamed Item.key name (found kind) =
      settled (mode kind) (lastNamed Item.key name (seen kind))
        (lastNamed Item.key name (want kind))) : cs.isEmpty = true := by
  have hcreates : cs.creates = [] := by
    rw [List.eq_nil_iff_forall_not_mem]
    intro c hc
    obtain ⟨hsup, item, hwant, hfound, -⟩ := (h.creates c).mp hc
    rw [hs c.kind hsup, hwant] at hfound
    exact settled_ne_none _ _ _ hfound
  have hupdates : cs.updates = [] := by
    rw [List.eq_nil_iff_forall_not_mem]
    intro c hc
    obtain ⟨hsup, hmode, old, item, hfound, hwant, hdiffer, -⟩ := (h.updates c).mp hc
    rw [hs c.kind hsup, hwant] at hfound
    exact hdiffer (settled_agree hmode hfound)
  have hdeletes : cs.deletes = [] := by
    rw [List.eq_nil_iff_forall_not_mem]
    intro c hc
    obtain ⟨hsup, hmode, old, hfound, hwant, -⟩ := (h.deletes c).mp hc
    rw [hs c.kind hsup, hwant, hmode, settled_full_none] at hfound
    cases hfound
  rw [ChangeSet.isEmpty, hcreates, hupdates, hdeletes]
  rfl

/-! ## 2. Exact change sets are tidy -/

theorem Exact.tidy {seen want : Section → List Item} {cs : ChangeSet}
    (h : Exact caps ids mode seen want cs) : Service.Tidy cs where
  nodup := h.nodup
  carriesOwn c hc item hitem := by
    rcases Service.mem_all.mp hc with hc | hc | hc
    · obtain ⟨-, new, hwant, -, -, hp⟩ := (h.creates c).mp hc
      rw [hp, Option.mem_some_iff] at hitem
      exact hitem ▸ (lastNamed_eq_some hwant).2
    · obtain ⟨-, -, old, new, -, hwant, -, -, hp⟩ := (h.updates c).mp hc
      rw [hp, Option.mem_some_iff] at hitem
      exact hitem ▸ (lastNamed_eq_some hwant).2
    · obtain ⟨-, -, old, -, -, -, hp⟩ := (h.deletes c).mp hc
      rw [hp] at hitem
      cases hitem

/-- A key that needs no change has none. -/
theorem Exact.target_ne {seen want : Section → List Item} {cs : ChangeSet}
    (h : Exact caps ids mode seen want cs) {kind : Section} {name : String}
    (hc : (lastNamed Item.key name (want kind)).isSome →
      (lastNamed Item.key name (seen kind)).isSome)
    (hu : ∀ old item, lastNamed Item.key name (seen kind) = some old →
      lastNamed Item.key name (want kind) = some item → mode kind = .createOnly ∨ old.Agree item)
    (hd : (lastNamed Item.key name (seen kind)).isSome → mode kind = .full →
      (lastNamed Item.key name (want kind)).isSome) :
    ∀ c ∈ cs.all, target c ≠ (kind, name) := by
  intro c hmem ht
  obtain ⟨rfl, rfl⟩ := Prod.mk.inj ht
  rcases Service.mem_all.mp hmem with hmem | hmem | hmem
  · obtain ⟨-, item, hwant, hseen, -⟩ := (h.creates c).mp hmem
    rw [hwant, hseen] at hc
    cases hc rfl
  · obtain ⟨-, hmode, old, item, hseen, hwant, hdiffer, -⟩ := (h.updates c).mp hmem
    exact (hu old item hseen hwant).elim hmode hdiffer
  · obtain ⟨-, hmode, old, hseen, hwant, -⟩ := (h.deletes c).mp hmem
    rw [hwant, hseen] at hd
    cases hd rfl hmode

end Diff

namespace Service

/-! ## 3. Applying an exact change set -/

/-- What is found under a key is found in its slot. -/
theorem lastNamed_filter (s : Service) (p : Item → Bool) (kind : Section) (name : String) :
    lastNamed Item.key name ((s kind).filter p) = ((s.slot (kind, name)).filter p).getLast? := by
  rw [lastNamed, slot, List.filter_filter, List.filter_filter]
  simp only [Bool.and_comm]

section Settles

variable {s : Service} {want : Section → List Item} {cs : ChangeSet} {kind : Section}
  {name : String} {item : Item}
  (h : Exact caps ids mode (fun kind => (s kind).filter caps.admits) want cs)

include h

/-- A key without a change keeps its items. -/
theorem lastNamed_apply_of_forall_ne (hne : ∀ c ∈ cs.all, target c ≠ (kind, name)) :
    lastNamed Item.key name ((s.apply cs kind).filter caps.admits) =
      lastNamed Item.key name ((s kind).filter caps.admits) := by
  rw [lastNamed_filter, h.tidy.slot_apply_of_forall_ne s hne, ← lastNamed_filter]

theorem lastNamed_apply_of_create (hsup : caps.supports kind = true)
    (hw : lastNamed Item.key name (want kind) = some item) (hadmits : caps.admits item = true)
    (hseen : lastNamed Item.key name ((s kind).filter caps.admits) = none) :
    lastNamed Item.key name ((s.apply cs kind).filter caps.admits) = some item := by
  have hc : ⟨kind, name, none, some item⟩ ∈ cs.creates :=
    (h.creates _).mpr ⟨hsup, item, hw, hseen, rfl, rfl⟩
  have hslot : (s.apply cs).slot (kind, name) = s.slot (kind, name) ++ [item] :=
    h.tidy.slot_apply_of_mem_creates s hc
  rw [lastNamed_filter, hslot]
  simp [hadmits]

theorem lastNamed_apply_of_delete (hsup : caps.supports kind = true) (hm : mode kind = .full)
    (hw : lastNamed Item.key name (want kind) = none) {old : Item}
    (hseen : lastNamed Item.key name ((s kind).filter caps.admits) = some old) :
    lastNamed Item.key name ((s.apply cs kind).filter caps.admits) = none := by
  have hd : ⟨kind, name, Table.get? (idsOf ids kind) name, none⟩ ∈ cs.deletes :=
    (h.deletes _).mpr ⟨hsup, hm, old, hseen, hw, rfl, rfl⟩
  have hslot : (s.apply cs).slot (kind, name) = [] := h.tidy.slot_apply_of_mem_deletes s hd
  rw [lastNamed_filter, hslot]
  rfl

theorem lastNamed_apply_of_update (hsup : caps.supports kind = true)
    (hm : mode kind ≠ .createOnly) (hw : lastNamed Item.key name (want kind) = some item)
    (hadmits : caps.admits item = true) {old : Item}
    (hseen : lastNamed Item.key name ((s kind).filter caps.admits) = some old)
    (hdiffers : ¬ old.Agree item) :
    lastNamed Item.key name ((s.apply cs kind).filter caps.admits) = some item := by
  have hu : ⟨kind, name, Table.get? (idsOf ids kind) name, some item⟩ ∈ cs.updates :=
    (h.updates _).mpr ⟨hsup, hm, old, item, hseen, hw, hdiffers, rfl, rfl⟩
  have hslot : (s.apply cs).slot (kind, name) = (s.slot (kind, name)).map fun _ => item :=
    h.tidy.slot_apply_of_mem_updates s hu
  -- every item of the key is the new one now, and there is one
  have hne : s.slot (kind, name) ≠ [] := by
    intro hnil
    rw [lastNamed_filter, hnil] at hseen
    cases hseen
  rw [lastNamed_filter, hslot, List.filter_map]
  simp [Function.comp_def, hadmits, List.getLast?_replicate, hne]

/-- **An exact change set settles every key of the kinds that are supported.** -/
theorem lastNamed_apply (hwant : ∀ kind, ∀ item ∈ want kind, caps.admits item = true)
    (hsup : caps.supports kind = true) (name : String) :
    lastNamed Item.key name ((s.apply cs kind).filter caps.admits) =
      settled (mode kind) (lastNamed Item.key name ((s kind).filter caps.admits))
        (lastNamed Item.key name (want kind)) := by
  have hadmits : ∀ item, lastNamed Item.key name (want kind) = some item →
      caps.admits item = true := fun item hi => hwant kind item (lastNamed_eq_some hi).1
  cases hseen : lastNamed Item.key name ((s kind).filter caps.admits) with
  | none =>
    cases hw : lastNamed Item.key name (want kind) with
    | none =>
      have hne : ∀ c ∈ cs.all, target c ≠ (kind, name) :=
        h.target_ne (by simp [hw]) (by simp [hw]) (by simp [hseen])
      rw [lastNamed_apply_of_forall_ne h hne, hseen]
      rfl
    | some item => exact lastNamed_apply_of_create h hsup hw (hadmits item hw) hseen
  | some old =>
    cases hw : lastNamed Item.key name (want kind) with
    | none =>
      by_cases hm : mode kind = .full
      · rw [lastNamed_apply_of_delete h hsup hm hw hseen, settled, if_pos hm]
      · have hne : ∀ c ∈ cs.all, target c ≠ (kind, name) :=
          h.target_ne (by simp [hw]) (by simp [hw]) (by simp [hm])
        rw [lastNamed_apply_of_forall_ne h hne, hseen, settled, if_neg hm]
    | some item =>
      by_cases hm : mode kind = .createOnly ∨ old.Agree item
      · have hne : ∀ c ∈ cs.all, target c ≠ (kind, name) := by
          refine h.target_ne (by simp [hseen]) ?_ (by simp [hw])
          intro old' item' hs' hw'
          rw [hseen, Option.some.injEq] at hs'
          rw [hw, Option.some.injEq] at hw'
          exact hs' ▸ hw' ▸ hm
        rw [lastNamed_apply_of_forall_ne h hne, hseen, settled, if_pos hm]
      · have hboth := not_or.mp hm
        rw [lastNamed_apply_of_update h hsup hboth.1 hw (hadmits item hw) hseen hboth.2, settled,
          if_neg hm]

end Settles

theorem mem_slot {s : Service} {kind : Section} {item : Item} :
    item ∈ s.slot (kind, item.key) ↔ item ∈ s kind := by
  simp [slot]

/-- Every item afterwards was there or is desired. -/
theorem mem_apply {s : Service} {seen want : Section → List Item} {cs : ChangeSet}
    (h : Exact caps ids mode seen want cs) {kind : Section} {item : Item}
    (hi : item ∈ s.apply cs kind) : item ∈ s kind ∨ item ∈ want kind := by
  rw [← mem_slot] at hi
  by_cases hne : ∀ c ∈ cs.all, target c ≠ (kind, item.key)
  · rw [h.tidy.slot_apply_of_forall_ne s hne, mem_slot] at hi
    exact Or.inl hi
  rw [not_forall] at hne
  obtain ⟨c, hne⟩ := hne
  rw [Classical.not_imp, not_not] at hne
  obtain ⟨hc, ht⟩ := hne
  rw [← ht] at hi
  have hkind : c.kind = kind := congrArg Prod.fst ht
  rcases mem_all.mp hc with hc | hc | hc
  · obtain ⟨-, new, hw, -, -, hp⟩ := (h.creates c).mp hc
    rw [h.tidy.slot_apply_of_mem_creates s hc, ht, List.mem_append, mem_slot, hp] at hi
    refine hi.imp_right fun hnew => ?_
    rw [Option.toList_some, List.mem_singleton] at hnew
    exact hkind ▸ hnew ▸ (lastNamed_eq_some hw).1
  · obtain ⟨-, -, old, new, -, hw, -, -, hp⟩ := (h.updates c).mp hc
    rw [h.tidy.slot_apply_of_mem_updates s hc, hp, List.mem_map] at hi
    obtain ⟨_, _, hnew⟩ := hi
    exact Or.inr (hkind ▸ hnew ▸ (lastNamed_eq_some hw).1)
  · rw [h.tidy.slot_apply_of_mem_deletes s hc] at hi
    cases hi

/-- Where all items may be managed, no slot has more items afterwards than before, or than one. -/
theorem length_slot_apply_le {s : Service} {seen want : Section → List Item} {cs : ChangeSet}
    (h : Exact caps ids mode seen want cs) {kind : Section} (hseen : seen kind = s kind)
    (name : String) :
    ((s.apply cs).slot (kind, name)).length ≤ max (s.slot (kind, name)).length 1 := by
  by_cases hne : ∀ c ∈ cs.all, target c ≠ (kind, name)
  · rw [h.tidy.slot_apply_of_forall_ne s hne]
    exact le_max_left _ _
  rw [not_forall] at hne
  obtain ⟨c, hne⟩ := hne
  rw [Classical.not_imp, not_not] at hne
  obtain ⟨hc, ht⟩ := hne
  obtain ⟨rfl, rfl⟩ := Prod.mk.inj ht
  change ((s.apply cs).slot (target c)).length ≤ max (s.slot (target c)).length 1
  rcases mem_all.mp hc with hc | hc | hc
  · obtain ⟨-, new, -, hnone, -, hp⟩ := (h.creates c).mp hc
    rw [hseen, lastNamed, List.getLast?_eq_none_iff] at hnone
    have hslot : s.slot (target c) = [] := hnone
    rw [h.tidy.slot_apply_of_mem_creates s hc, hslot, hp]
    simp
  · rw [h.tidy.slot_apply_of_mem_updates s hc, List.length_map]
    exact le_max_left _ _
  · rw [h.tidy.slot_apply_of_mem_deletes s hc]
    exact Nat.zero_le _

theorem foldl_of_forall_kind_ne (op : Service → Change → Service) {kind : Section}
    (hop : ∀ s c, c.kind ≠ kind → op s c kind = s kind) :
    ∀ (cs : List Change) (s : Service), (∀ c ∈ cs, c.kind ≠ kind) → cs.foldl op s kind = s kind
  | [], _, _ => rfl
  | c :: cs, s, h => by
    rw [List.foldl_cons,
      foldl_of_forall_kind_ne op hop cs _ fun d hd => h d (List.mem_cons_of_mem _ hd),
      hop s c (h c List.mem_cons_self)]

/-- A kind without changes keeps its list. -/
theorem apply_of_forall_kind_ne {s : Service} {cs : ChangeSet} {kind : Section}
    (h : ∀ c ∈ cs.all, c.kind ≠ kind) : s.apply cs kind = s kind := by
  have hkeep : ∀ (s : Service) (c : Change) (f : List Item → List Item), c.kind ≠ kind →
      s.modify c.kind f kind = s kind := fun s c f hc => if_neg (Ne.symm hc)
  rw [apply,
    foldl_of_forall_kind_ne delete (fun s c hc => hkeep s c _ hc) _ _ fun c hc =>
      h c (mem_all.mpr (.inr (.inr hc))),
    foldl_of_forall_kind_ne update (fun s c hc => hkeep s c _ hc) _ _ fun c hc =>
      h c (mem_all.mpr (.inr (.inl hc))),
    foldl_of_forall_kind_ne create (fun s c hc => hkeep s c _ hc) _ _ fun c hc =>
      h c (mem_all.mpr (.inl hc))]

/-- A list of one item at most is one afterwards, if one item at most is desired. -/
theorem length_apply_le_one {s : Service} {want : Section → List Item} {cs : ChangeSet}
    (h : Exact caps ids mode (fun kind => (s kind).filter caps.admits) want cs)
    (hwant : ∀ kind, ∀ item ∈ want kind, caps.admits item = true) {kind : Section}
    (hall : ∀ item ∈ s kind, caps.admits item = true) (hm : mode kind = .full)
    (hs : (s kind).length ≤ 1) (hone : ∀ a ∈ want kind, ∀ b ∈ want kind, a = b) :
    (s.apply cs kind).length ≤ 1 := by
  by_cases hsup : caps.supports kind = true
  swap
  · have hne : ∀ c ∈ cs.all, c.kind ≠ kind := by
      intro c hc hk
      rw [← hk] at hsup
      exact hsup (h.supports hc)
    rw [apply_of_forall_kind_ne hne]
    exact hs
  -- what is there afterwards is desired, so it is all of one key
  have hwanted : ∀ item ∈ s.apply cs kind, ∃ new ∈ want kind, new.key = item.key := by
    intro item hi
    have hadmits : caps.admits item = true := (mem_apply h hi).elim (hall item) (hwant kind item)
    cases hn : lastNamed Item.key item.key (want kind) with
    | some new => exact ⟨new, lastNamed_eq_some hn⟩
    | none =>
      have hnone := lastNamed_apply h hwant hsup item.key
      rw [hn, hm, settled_full_none, lastNamed_eq_none_iff] at hnone
      exact absurd rfl (hnone item (List.mem_filter.mpr ⟨hi, hadmits⟩))
  cases happly : s.apply cs kind with
  | nil => exact Nat.zero_le _
  | cons first rest =>
    have hfirst : first ∈ s.apply cs kind := happly ▸ List.mem_cons_self
    obtain ⟨new, hnew, hkey⟩ := hwanted first hfirst
    have hslot : (s.apply cs).slot (kind, new.key) = s.apply cs kind := by
      rw [slot, List.filter_eq_self]
      intro item hi
      obtain ⟨new', hnew', hkey'⟩ := hwanted item hi
      rw [← hkey', hone new' hnew' new hnew]
      exact beq_self_eq_true _
    have hseen : (s kind).filter caps.admits = s kind := List.filter_eq_self.mpr hall
    have hle := length_slot_apply_le h hseen new.key
    rw [hslot, happly] at hle
    refine hle.trans (max_le ?_ le_rfl)
    exact (List.length_filter_le _ _).trans hs

end Service

/-! ## 4. Services and configurations -/

namespace Shape

/-- The items of a configuration as a service holds them. -/
def service (shape : Shape) (s : Option ServiceState) : Service := fun kind =>
  match s with
  | some s => shape.items s kind
  | none => []

/-- The configuration is what the service shows of itself. -/
def Shows (shape : Shape) (service : Service) (s : ServiceState) : Prop :=
  shape.Fits s ∧ ∀ kind, shape.items s kind = service kind

/-- Configurations of the shape have items of this type under the kind. -/
def Holds : Shape → Section → Item → Prop
  | .manager, .qualityProfile, item => ∃ q, Item.quality q = item
  | .manager, .downloadClient, item => ∃ c, Item.downloadClient c = item
  | .manager, .indexer, item => ∃ i, Item.indexer i = item
  | .manager, .rootFolder, item => ∃ f, Item.rootFolder f = item
  | .manager, .pathMapping, item => ∃ m, Item.pathMapping m = item
  | .aggregator, .indexer, item => ∃ i, Item.aggregatorIndexer i = item
  | .aggregator, .indexerProxy, item => ∃ p, Item.proxy p = item
  | .aggregator, .application, item => ∃ a, Item.application a = item
  | .aggregator, .downloadClient, item => ∃ c, Item.downloadClient c = item
  | _, _, _ => False

theorem holds_of_mem_items {shape : Shape} {s : ServiceState} {kind : Section} {item : Item}
    (h : item ∈ shape.items s kind) : shape.Holds kind item := by
  cases shape <;> cases kind <;> simp only [items, List.mem_map, List.not_mem_nil] at h
  all_goals
    obtain ⟨a, -, ha⟩ := h
    exact ⟨a, ha⟩

/-- A list of items of one type is a list of that type. -/
theorem exists_map_eq {α : Type} {f : α → Item} {items : List Item}
    (h : ∀ item ∈ items, ∃ a, f a = item) : ∃ as : List α, as.map f = items := by
  have hrange : items ∈ Set.range (List.map f) := by
    rw [Set.range_list_map]
    exact h
  exact hrange

theorem exists_shows_manager {service : Service}
    (hholds : ∀ kind, ∀ item ∈ service kind, Shape.manager.Holds kind item)
    (hone : (service .qualityProfile).length ≤ 1) : ∃ s, Shape.manager.Shows service s := by
  obtain ⟨qs, hqs⟩ := exists_map_eq (hholds .qualityProfile)
  obtain ⟨cs, hcs⟩ := exists_map_eq (hholds .downloadClient)
  obtain ⟨is, his⟩ := exists_map_eq (hholds .indexer)
  obtain ⟨fs, hfs⟩ := exists_map_eq (hholds .rootFolder)
  obtain ⟨ms, hms⟩ := exists_map_eq (hholds .pathMapping)
  have hquality : qs.head?.toList = qs := by
    rw [← hqs, List.length_map] at hone
    match qs, hone with
    | [], _ => rfl
    | [q], _ => rfl
  refine ⟨{ app := "", quality := qs.head?, downloadClients := cs,
            indexers := some { direct := is }, rootFolders := fs, pathMappings := ms },
    rfl, fun kind => ?_⟩
  cases kind with
  | qualityProfile => exact (congrArg _ hquality).trans hqs
  | downloadClient => exact hcs
  | indexer => exact his
  | rootFolder => exact hfs
  | pathMapping => exact hms
  | _ => exact (List.eq_nil_iff_forall_not_mem.mpr (hholds _)).symm

theorem exists_shows_aggregator {service : Service}
    (hholds : ∀ kind, ∀ item ∈ service kind, Shape.aggregator.Holds kind item) :
    ∃ s, Shape.aggregator.Shows service s := by
  obtain ⟨is, his⟩ := exists_map_eq (hholds .indexer)
  obtain ⟨ps, hps⟩ := exists_map_eq (hholds .indexerProxy)
  obtain ⟨as, has⟩ := exists_map_eq (hholds .application)
  obtain ⟨cs, hcs⟩ := exists_map_eq (hholds .downloadClient)
  refine ⟨{ app := "", aggregator := some ⟨is, ps, as, cs⟩ }, ⟨rfl, rfl, rfl, rfl, rfl⟩,
    fun kind => ?_⟩
  cases kind with
  | indexer => exact his
  | indexerProxy => exact hps
  | application => exact has
  | downloadClient => exact hcs
  | _ => exact (List.eq_nil_iff_forall_not_mem.mpr (hholds _)).symm

end Shape

/-! ## 5. Convergence -/

section Convergence

variable {shape : Shape} {observed : Option ServiceState} {desired : ServiceState}

theorem Shape.observed_eq_service (shape : Shape) (caps : Capabilities)
    (observed : Option ServiceState) (kind : Section) :
    shape.observed caps observed kind = (shape.service observed kind).filter caps.admits := by
  cases observed with
  | none => rfl
  | some s => rfl

theorem Shape.admits_of_mem_managed {item : Item} {kind : Section}
    (h : item ∈ shape.managed caps desired kind) : caps.admits item = true :=
  (List.mem_filter.mp h).2

/-- The difference to a service is exact for what the service holds. -/
theorem exact_diff_service (ho : ∀ s ∈ observed, shape.Fits s) (hd : shape.Fits desired)
    (caps : Capabilities) (ids : ItemIds) :
    Exact caps ids (shape.mode desired)
      (fun kind => (shape.service observed kind).filter caps.admits)
      (shape.managed caps desired) (diff observed desired caps ids) :=
  (exact_diff ho hd caps ids).congr (shape.observed_eq_service caps observed) fun _ => rfl

theorem Shape.holds_apply (ho : ∀ s ∈ observed, shape.Fits s) (hd : shape.Fits desired)
    {kind : Section} {item : Item}
    (hi : item ∈ (shape.service observed).apply (diff observed desired caps ids) kind) :
    shape.Holds kind item := by
  rcases Service.mem_apply (exact_diff_service ho hd caps ids) hi with hi | hi
  · cases observed with
    | none => cases hi
    | some s => exact Shape.holds_of_mem_items hi
  · exact Shape.holds_of_mem_items (List.mem_of_mem_filter hi)

/-- What a service holds after the difference was applied, it shows as a configuration. -/
theorem Shape.exists_shows_apply (ho : ∀ s ∈ observed, shape.Fits s) (hd : shape.Fits desired)
    (caps : Capabilities) (ids : ItemIds) :
    ∃ s, shape.Shows ((shape.service observed).apply (diff observed desired caps ids)) s := by
  cases shape with
  | aggregator => exact exists_shows_aggregator fun _ _ hi => holds_apply ho hd hi
  | manager =>
    refine exists_shows_manager (fun _ _ hi => holds_apply ho hd hi) ?_
    refine Service.length_apply_le_one (exact_diff_service ho hd caps ids)
      (fun _ _ hi => admits_of_mem_managed hi) ?_ rfl ?_ ?_
    · intro item hi
      cases observed with
      | none => cases hi
      | some s =>
        have hmem : item ∈ Shape.manager.items s .qualityProfile := hi
        obtain ⟨q, rfl⟩ := Shape.holds_of_mem_items hmem
        rfl
    · cases observed with
      | none => exact Nat.zero_le _
      | some s =>
        cases hq : s.quality with
        | none => simp [Shape.service, Shape.items, hq]
        | some q => simp [Shape.service, Shape.items, hq]
    · intro a ha b hb
      have ha' := List.mem_of_mem_filter ha
      have hb' := List.mem_of_mem_filter hb
      cases hq : desired.quality with
      | none => simp [Shape.items, hq] at ha'
      | some q =>
        simp only [Shape.items, hq, Option.toList_some, List.map_cons, List.map_nil,
          List.mem_singleton] at ha' hb'
        rw [ha', hb']

/-- **Applying the difference leaves no difference.**  What the service holds afterwards can be
observed as a configuration, and between any such observation and the desired configuration there
is nothing left to change. -/
theorem diff_converges (shape : Shape) (observed : Option ServiceState) (desired : ServiceState)
    (caps : Capabilities) (ids : ItemIds) (ho : ∀ s ∈ observed, shape.Fits s)
    (hd : shape.Fits desired) :
    let after := (shape.service observed).apply (diff observed desired caps ids)
    (∃ s, shape.Shows after s) ∧
      ∀ s, shape.Shows after s → (diff (some s) desired caps ids).isEmpty = true := by
  refine ⟨Shape.exists_shows_apply ho hd caps ids, fun s hs => ?_⟩
  obtain ⟨hfits, hitems⟩ := hs
  have hfound : Exact caps ids (shape.mode desired) (shape.observed caps (some s))
      (shape.managed caps desired) (diff (some s) desired caps ids) :=
    exact_diff (fun _ h => Option.some.inj h ▸ hfits) hd caps ids
  refine Exact.isEmpty_of_settled (fun kind => (shape.service observed kind).filter caps.admits)
    hfound fun kind hsup name => ?_
  have hshown : shape.observed caps (some s) kind =
      ((shape.service observed).apply (diff observed desired caps ids) kind).filter caps.admits :=
    congrArg (List.filter caps.admits) (hitems kind)
  rw [hshown]
  exact Service.lastNamed_apply (exact_diff_service ho hd caps ids)
    (fun _ _ hi => Shape.admits_of_mem_managed hi) hsup name

/-- A service with a client listed twice, one of a type that is not managed, and an indexer that an
aggregator is to provide. -/
theorem diff_converges_manager :
    let caps : Capabilities := { downloadClientTypes := ["Deluge"] }
    let observed : ServiceState :=
      { app := "radarr"
        downloadClients := [⟨"a", "Deluge", "", "h", 1, false, "", "", "", "", 1, true⟩,
          ⟨"a", "Deluge", "", "h", 2, false, "", "", "", "", 1, true⟩,
          ⟨"b", "Transmission", "", "h", 3, false, "", "", "", "", 1, true⟩]
        indexers := some { direct := [⟨"i", "Newznab", "", "", "", [], 25, true⟩] }
        rootFolders := [⟨"/old"⟩] }
    let desired : ServiceState :=
      { app := "radarr"
        downloadClients := [⟨"a", "Deluge", "", "g", 1, false, "", "", "", "", 1, true⟩,
          ⟨"b", "Deluge", "", "g", 3, false, "", "", "", "", 1, true⟩]
        indexers := some { aggregatorManaged := true }
        rootFolders := [⟨"/new"⟩] }
    Shape.manager.Fits observed ∧ Shape.manager.Fits desired ∧
      (diff (some observed) desired caps []).all.length = 3 ∧
      let after := (Shape.manager.service observed).apply (diff (some observed) desired caps [])
      (∃ s, Shape.manager.Shows after s) ∧
        ∀ s, Shape.manager.Shows after s → (diff (some s) desired caps []).isEmpty = true :=
  ⟨rfl, rfl, by decide +kernel,
    diff_converges .manager (some _) _ _ [] (fun _ h => Option.some.inj h ▸ rfl) rfl⟩

end Convergence

end Steward
