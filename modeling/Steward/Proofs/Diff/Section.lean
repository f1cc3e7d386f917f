import Mathlib.Data.List.Nodup
import Steward.Proofs.Diff.Item

/-!
# The changes of one section

`Exact` says what a change set has to be: for every kind and key a creation where only the desired
side has the key, an update where both sides have it and their last items disagree, a deletion where
only the observed side has it, nothing else, and nothing twice.  The changes of a single section are
exact for the items of its kind (`exact_gated`), and change sets of different kinds are exact
together (`Exact.append`), so that the changes of a whole configuration follow from those of its
sections.
-/

namespace Steward.Diff

open Table

/-! ## 1. What a change has to be -/

/-- The change creates the desired item of its key, and none was observed. -/
def Creates (seen want : List Item) (c : Change) : Prop :=
  ∃ item, lastNamed Item.key c.name want = some item ∧ lastNamed Item.key c.name seen = none ∧
    c.id = none ∧ c.payload = some item

/-- The change puts the desired item of its key in the place of an observed one that disagrees. -/
def Updates (ids : Table Int) (seen want : List Item) (c : Change) : Prop :=
  ∃ old item, lastNamed Item.key c.name seen = some old ∧
    lastNamed Item.key c.name want = some item ∧ ¬ old.Agree item ∧
    c.id = get? ids c.name ∧ c.payload = some item

/-- The change deletes the observed item of its key, and none is desired. -/
def Deletes (ids : Table Int) (seen want : List Item) (c : Change) : Prop :=
  ∃ old, lastNamed Item.key c.name seen = some old ∧ lastNamed Item.key c.name want = none ∧
    c.id = get? ids c.name ∧ c.payload = none

/-- The kind and the key that a change is about. -/
def target (c : Change) : Section × String := (c.kind, c.name)

/-- The ids of the items of a kind. -/
def idsOf (ids : ItemIds) (kind : Section) : Table Int := (get? ids kind.name).getD []

/-- The change set holds all changes between the observed and the desired items of every kind, and
no others.  Kinds that are not supported have none. -/
structure Exact (caps : Capabilities) (ids : ItemIds) (mode : Section → Mode)
    (seen want : Section → List Item) (cs : ChangeSet) : Prop where
  creates : ∀ c, c ∈ cs.creates ↔
    caps.supports c.kind = true ∧ Creates (seen c.kind) (want c.kind) c
  updates : ∀ c, c ∈ cs.updates ↔
    caps.supports c.kind = true ∧ mode c.kind ≠ .createOnly ∧
      Updates (idsOf ids c.kind) (seen c.kind) (want c.kind) c
  deletes : ∀ c, c ∈ cs.deletes ↔
    caps.supports c.kind = true ∧ mode c.kind = .full ∧
      Deletes (idsOf ids c.kind) (seen c.kind) (want c.kind) c
  nodup : (cs.all.map target).Nodup

/-! ## 2. A single section -/

variable {α : Type} [DecidableEq α]

theorem mk_eq {c : Change} {kind : Section} {id : Option Int} {payload : Option Item}
    (hkind : c.kind = kind) (hid : c.id = id) (hp : c.payload = payload) :
    { kind, name := c.name, id, payload } = c := by
  subst hkind hid hp
  rfl

/-- Changes that are made from the entries of a table have its keys, in its order. -/
theorem names_filterMap_sublist {β : Type} {t : Table β} {f : String × β → Option Change}
    (hf : ∀ e c, f e = some c → c.name = e.1) :
    ((t.filterMap f).map Change.name).Sublist (keys t) := by
  induction t with
  | nil => exact List.Sublist.refl _
  | cons e rest ih =>
    rw [List.filterMap_cons]
    cases he : f e with
    | none => exact ih.cons _
    | some c =>
      rw [List.map_cons, hf e c he]
      exact ih.cons_cons _

section Faithful

variable {k : Keyed α} (hk : k.Faithful)

include hk

theorem lastNamed_carry (name : String) (items : List α) :
    lastNamed Item.key name (items.map k.carry) = (lastNamed k.key name items).map k.carry :=
  lastNamed_map hk.key_carry name items

theorem mem_creates_changesOf {ids : Table Int} {mode : Mode} {observed desired : List α}
    {c : Change} : c ∈ (changesOf k ids mode observed desired).creates ↔
      c.kind = k.kind ∧ Creates (observed.map k.carry) (desired.map k.carry) c := by
  simp only [changesOf, List.mem_filterMap, Creates, lastNamed_carry hk, has_ofItems]
  constructor
  · rintro ⟨⟨name, a⟩, hmem, h⟩
    rw [mem_ofItems] at hmem
    cases hs : lastNamed k.key name observed with
    | some old => simp [hs] at h
    | none =>
      simp only [hs, Option.isSome_none, Bool.false_eq_true, if_false, Option.some.injEq] at h
      subst h
      exact ⟨rfl, k.carry a, by simp [hmem], by simp [hs], rfl, rfl⟩
  · rintro ⟨hkind, item, hw, hs, hid, hp⟩
    obtain ⟨a, ha, rfl⟩ := Option.map_eq_some_iff.mp hw
    refine ⟨(c.name, a), mem_ofItems.mpr ha, ?_⟩
    rw [Option.map_eq_none_iff] at hs
    simp [hs, mk_eq hkind hid hp]

theorem mem_updates_changesOf {ids : Table Int} {mode : Mode} {observed desired : List α}
    {c : Change} : c ∈ (changesOf k ids mode observed desired).updates ↔
      c.kind = k.kind ∧ mode ≠ .createOnly ∧
        Updates ids (observed.map k.carry) (desired.map k.carry) c := by
  by_cases hm : mode = .createOnly
  · simp [changesOf, hm]
  simp only [changesOf, if_neg hm, List.mem_filterMap, Updates, lastNamed_carry hk, get?_ofItems]
  constructor
  · rintro ⟨⟨name, a⟩, hmem, h⟩
    rw [mem_ofItems] at hmem
    cases hs : lastNamed k.key name observed with
    | none => simp [hs] at h
    | some old =>
      simp only [hs] at h
      split at h
      · rename_i hd
        rw [Option.some.injEq] at h
        subst h
        exact ⟨rfl, hm, k.carry old, k.carry a, by simp [hs], by simp [hmem],
          (hk.differs_iff old a).mp hd, rfl, rfl⟩
      · cases h
  · rintro ⟨hkind, -, old, item, hs, hw, hd, hid, hp⟩
    obtain ⟨a, ha, rfl⟩ := Option.map_eq_some_iff.mp hw
    obtain ⟨b, hb, rfl⟩ := Option.map_eq_some_iff.mp hs
    refine ⟨(c.name, a), mem_ofItems.mpr ha, ?_⟩
    simp [hb, (hk.differs_iff b a).mpr hd, mk_eq hkind hid hp]

theorem mem_deletes_changesOf {ids : Table Int} {mode : Mode} {observed desired : List α}
    {c : Change} : c ∈ (changesOf k ids mode observed desired).deletes ↔
      c.kind = k.kind ∧ mode = .full ∧
        Deletes ids (observed.map k.carry) (desired.map k.carry) c := by
  by_cases hm : mode = .full
  swap
  · simp [changesOf, hm]
  simp only [changesOf, if_pos hm, List.mem_filterMap, Deletes, lastNamed_carry hk, has_ofItems]
  constructor
  · rintro ⟨⟨name, a⟩, hmem, h⟩
    rw [mem_ofItems] at hmem
    cases hw : lastNamed k.key name desired with
    | some item => simp [hw] at h
    | none =>
      simp only [hw, Option.isSome_none, Bool.false_eq_true, if_false, Option.some.injEq] at h
      subst h
      exact ⟨rfl, hm, k.carry a, by simp [hmem], by simp [hw], rfl, rfl⟩
  · rintro ⟨hkind, -, old, hs, hw, hid, hp⟩
    obtain ⟨a, ha, rfl⟩ := Option.map_eq_some_iff.mp hs
    refine ⟨(c.name, a), mem_ofItems.mpr ha, ?_⟩
    rw [Option.map_eq_none_iff] at hw
    simp [hw, mk_eq hkind hid hp]

omit hk in
theorem nodup_names_creates (ids : Table Int) (mode : Mode) (observed desired : List α) :
    ((changesOf k ids mode observed desired).creates.map Change.name).Nodup := by
  refine (names_filterMap_sublist ?_).nodup (nodup_keys_ofItems k.key desired)
  rintro ⟨name, a⟩ c h
  dsimp only at h
  split at h <;> cases h
  rfl

omit hk in
theorem nodup_names_updates (ids : Table Int) (mode : Mode) (observed desired : List α) :
    ((changesOf k ids mode observed desired).updates.map Change.name).Nodup := by
  by_cases hm : mode = .createOnly
  · simp [changesOf, hm]
  simp only [changesOf, if_neg hm]
  refine (names_filterMap_sublist ?_).nodup (nodup_keys_ofItems k.key desired)
  rintro ⟨name, a⟩ c h
  dsimp only at h
  split at h
  · split at h <;> cases h
    rfl
  · cases h

omit hk in
theorem nodup_names_deletes (ids : Table Int) (mode : Mode) (observed desired : List α) :
    ((changesOf k ids mode observed desired).deletes.map Change.name).Nodup := by
  by_cases hm : mode = .full
  swap
  · simp [changesOf, hm]
  simp only [changesOf, if_pos hm]
  refine (names_filterMap_sublist ?_).nodup (nodup_keys_ofItems k.key observed)
  rintro ⟨name, a⟩ c h
  dsimp only at h
  split at h <;> cases h
  rfl

/-- A name is not created and updated at once, nor one of these and deleted. -/
theorem nodup_names_changesOf (ids : Table Int) (mode : Mode) (observed desired : List α) :
    ((changesOf k ids mode observed desired).all.map Change.name).Nodup := by
  have hc := nodup_names_creates (k := k) ids mode observed desired
  have hu := nodup_names_updates (k := k) ids mode observed desired
  have hd := nodup_names_deletes (k := k) ids mode observed desired
  rw [ChangeSet.all, List.map_append, List.map_append, List.nodup_append, List.nodup_append]
  refine ⟨⟨hc, hu, ?_⟩, hd, ?_⟩
  · rintro x hx y hy rfl
    obtain ⟨c, hcm, rfl⟩ := List.mem_map.mp hx
    obtain ⟨d, hdm, hname⟩ := List.mem_map.mp hy
    obtain ⟨-, item, -, hnone, -⟩ := (mem_creates_changesOf hk).mp hcm
    obtain ⟨-, -, old, item', hsome, -⟩ := (mem_updates_changesOf hk).mp hdm
    rw [hname, hnone] at hsome
    cases hsome
  · rintro x hx y hy rfl
    obtain ⟨d, hdm, rfl⟩ := List.mem_map.mp hy
    obtain ⟨-, -, old, -, hnone, -⟩ := (mem_deletes_changesOf hk).mp hdm
    -- a created or updated name is desired
    have hwanted : ∃ item, lastNamed Item.key d.name (desired.map k.carry) = some item := by
      rcases List.mem_append.mp hx with hx | hx
      · obtain ⟨c, hcm, hname⟩ := List.mem_map.mp hx
        obtain ⟨-, item, hsome, -⟩ := (mem_creates_changesOf hk).mp hcm
        exact ⟨item, hname ▸ hsome⟩
      · obtain ⟨c, hcm, hname⟩ := List.mem_map.mp hx
        obtain ⟨-, -, old', item, -, hsome, -⟩ := (mem_updates_changesOf hk).mp hcm
        exact ⟨item, hname ▸ hsome⟩
    obtain ⟨item, hsome⟩ := hwanted
    rw [hnone] at hsome
    cases hsome

end Faithful

/-! ## 3. Sections together -/

/-- The items of one kind. -/
def only (kind : Section) (items : List Item) (other : Section) : List Item :=
  if other = kind then items else []

@[simp] theorem only_self (kind : Section) (items : List Item) : only kind items kind = items :=
  if_pos rfl

theorem only_of_ne {kind other : Section} (h : other ≠ kind) (items : List Item) :
    only kind items other = [] := if_neg h

theorem not_creates_nil {seen : List Item} {c : Change} : ¬ Creates seen [] c := by
  rintro ⟨item, h, -⟩
  cases h

theorem not_updates_nil {ids : Table Int} {seen : List Item} {c : Change} :
    ¬ Updates ids seen [] c := by
  rintro ⟨old, item, -, h, -⟩
  cases h

theorem not_deletes_nil {ids : Table Int} {want : List Item} {c : Change} :
    ¬ Deletes ids [] want c := by
  rintro ⟨old, h, -⟩
  cases h

variable {caps : Capabilities} {ids : ItemIds} {mode : Section → Mode}

/-- **The changes of one section are exact for the items of its kind.** -/
theorem exact_gated {k : Keyed α} (hk : k.Faithful) (observed desired : List α) :
    Exact caps ids mode (only k.kind (observed.map k.carry)) (only k.kind (desired.map k.carry))
      (gated caps ids (mode k.kind) k observed desired) := by
  by_cases hs : caps.supports k.kind = true
  · rw [gated, if_pos hs]
    refine ⟨fun c => ?_, fun c => ?_, fun c => ?_, ?_⟩
    · rw [mem_creates_changesOf hk]
      by_cases hc : c.kind = k.kind
      · simp [hc, hs]
      · simp [hc, only_of_ne hc, not_creates_nil]
    · rw [mem_updates_changesOf hk]
      by_cases hc : c.kind = k.kind
      · simp [hc, hs, idsOf]
      · simp [hc, only_of_ne hc, not_updates_nil]
    · rw [mem_deletes_changesOf hk]
      by_cases hc : c.kind = k.kind
      · simp [hc, hs, idsOf]
      · simp [hc, only_of_ne hc, not_deletes_nil]
    · have hnames := nodup_names_changesOf hk (idsOf ids k.kind) (mode k.kind) observed desired
      refine List.Nodup.of_map Prod.snd ?_
      rw [List.map_map]
      exact hnames
  · rw [gated, if_neg hs]
    refine ⟨fun c => ?_, fun c => ?_, fun c => ?_, List.nodup_nil⟩
    · by_cases hc : c.kind = k.kind
      · simp [hc, hs]
      · simp [only_of_ne hc, not_creates_nil]
    · by_cases hc : c.kind = k.kind
      · simp [hc, hs]
      · simp [only_of_ne hc, not_updates_nil]
    · by_cases hc : c.kind = k.kind
      · simp [hc, hs]
      · simp [only_of_ne hc, not_deletes_nil]

/-- A kind that a change set has a change of has items. -/
theorem Exact.ne_nil_of_mem {seen want : Section → List Item} {cs : ChangeSet}
    (h : Exact caps ids mode seen want cs) {c : Change} (hc : c ∈ cs.all) :
    ¬ (seen c.kind = [] ∧ want c.kind = []) := by
  rintro ⟨hseen, hwant⟩
  rw [ChangeSet.all, List.mem_append, List.mem_append] at hc
  rcases hc with (hc | hc) | hc
  · have hcreates := ((h.creates c).mp hc).2
    rw [hwant] at hcreates
    exact not_creates_nil hcreates
  · have hupdates := ((h.updates c).mp hc).2.2
    rw [hwant] at hupdates
    exact not_updates_nil hupdates
  · have hdeletes := ((h.deletes c).mp hc).2.2
    rw [hseen] at hdeletes
    exact not_deletes_nil hdeletes

@[simp] theorem creates_append (c d : ChangeSet) : (c ++ d).creates = c.creates ++ d.creates := rfl

@[simp] theorem updates_append (c d : ChangeSet) : (c ++ d).updates = c.updates ++ d.updates := rfl

@[simp] theorem deletes_append (c d : ChangeSet) : (c ++ d).deletes = c.deletes ++ d.deletes := rfl

theorem all_append_perm (c d : ChangeSet) : (c ++ d).all.Perm (c.all ++ d.all) := by
  simp only [ChangeSet.all, creates_append, updates_append, deletes_append]
  rw [List.perm_iff_count]
  intro a
  simp only [List.count_append]
  omega

/-- **Change sets of different kinds are exact together.** -/
theorem Exact.append {seen₁ want₁ seen₂ want₂ : Section → List Item} {cs₁ cs₂ : ChangeSet}
    (h₁ : Exact caps ids mode seen₁ want₁ cs₁) (h₂ : Exact caps ids mode seen₂ want₂ cs₂)
    (hdis : ∀ kind, (seen₁ kind = [] ∧ want₁ kind = []) ∨ (seen₂ kind = [] ∧ want₂ kind = [])) :
    Exact caps ids mode (fun kind => seen₁ kind ++ seen₂ kind)
      (fun kind => want₁ kind ++ want₂ kind) (cs₁ ++ cs₂) where
  creates c := by
    rw [creates_append, List.mem_append, h₁.creates, h₂.creates]
    rcases hdis c.kind with ⟨hs, hw⟩ | ⟨hs, hw⟩ <;> simp [hs, hw, not_creates_nil]
  updates c := by
    rw [updates_append, List.mem_append, h₁.updates, h₂.updates]
    rcases hdis c.kind with ⟨hs, hw⟩ | ⟨hs, hw⟩ <;> simp [hs, hw, not_updates_nil]
  deletes c := by
    rw [deletes_append, List.mem_append, h₁.deletes, h₂.deletes]
    rcases hdis c.kind with ⟨hs, hw⟩ | ⟨hs, hw⟩ <;> simp [hs, hw, not_deletes_nil]
  nodup := by
    rw [((all_append_perm cs₁ cs₂).map target).nodup_iff, List.map_append, List.nodup_append]
    refine ⟨h₁.nodup, h₂.nodup, ?_⟩
    rintro x hx y hy rfl
    obtain ⟨c, hc, rfl⟩ := List.mem_map.mp hx
    obtain ⟨d, hd, htarget⟩ := List.mem_map.mp hy
    have hkind : d.kind = c.kind := congrArg Prod.fst htarget
    rcases hdis c.kind with hnil | hnil
    · exact h₁.ne_nil_of_mem hc hnil
    · exact h₂.ne_nil_of_mem hd (hkind ▸ hnil)

/-- The items may be given in another way. -/
theorem Exact.congr {seen want seen' want' : Section → List Item} {cs : ChangeSet}
    (h : Exact caps ids mode seen want cs) (hseen : ∀ kind, seen kind = seen' kind)
    (hwant : ∀ kind, want kind = want' kind) : Exact caps ids mode seen' want' cs := by
  rwa [funext hseen, funext hwant] at h

end Steward.Diff
