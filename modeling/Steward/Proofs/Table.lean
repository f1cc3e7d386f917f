import Mathlib.Data.List.Induction
import Mathlib.Data.List.Nodup
import Steward.Table

/-!
# Tables of items

A table that is filled item by item holds, under each key, the last item of that key, and it holds
every key once.  `lastNamed` says the first half without a table: it is what the lists on both sides
of a comparison are looked up by.
-/

namespace Steward

variable {α β : Type}

/-! ## 1. The last item of a key -/

/-- The last item that has a key. -/
def lastNamed (key : α → String) (name : String) (items : List α) : Option α :=
  (items.filter fun a => key a == name).getLast?

@[simp] theorem lastNamed_nil (key : α → String) (name : String) :
    lastNamed key name [] = none := rfl

theorem lastNamed_append_singleton (key : α → String) (name : String) (items : List α) (a : α) :
    lastNamed key name (items ++ [a]) =
      if key a = name then some a else lastNamed key name items := by
  by_cases h : key a = name <;> simp [lastNamed, h]

/-- The item that is found has the key, and is one of the items. -/
theorem lastNamed_eq_some {key : α → String} {name : String} {items : List α} {a : α}
    (h : lastNamed key name items = some a) : a ∈ items ∧ key a = name := by
  have hmem := List.mem_of_getLast? h
  rw [List.mem_filter] at hmem
  exact ⟨hmem.1, by simpa using hmem.2⟩

theorem lastNamed_eq_none_iff {key : α → String} {name : String} {items : List α} :
    lastNamed key name items = none ↔ ∀ a ∈ items, key a ≠ name := by
  simp [lastNamed]

/-- It is the one that no item of the key comes after. -/
theorem lastNamed_eq_some_iff {key : α → String} {name : String} {items : List α} {a : α} :
    lastNamed key name items = some a ↔
      ∃ before after, items = before ++ a :: after ∧ key a = name ∧
        ∀ b ∈ after, key b ≠ name := by
  rw [lastNamed, List.getLast?_eq_some_iff]
  constructor
  · rintro ⟨others, hfilter⟩
    obtain ⟨before, rest, rfl, -, hrest⟩ := List.filter_eq_append_iff.mp hfilter
    obtain ⟨between, after, rfl, -, ha, hafter⟩ := List.filter_eq_cons_iff.mp hrest
    refine ⟨before ++ between, after, (List.append_assoc ..).symm, beq_iff_eq.mp ha, ?_⟩
    intro b hb hname
    exact List.filter_eq_nil_iff.mp hafter b hb (beq_iff_eq.mpr hname)
  · rintro ⟨before, after, rfl, ha, hafter⟩
    have hnil : after.filter (fun b => key b == name) = [] :=
      List.filter_eq_nil_iff.mpr fun b hb hname => hafter b hb (beq_iff_eq.mp hname)
    refine ⟨before.filter fun b => key b == name, ?_⟩
    rw [List.filter_append, List.filter_cons, if_pos (beq_iff_eq.mpr ha), hnil]

/-- Items may be carried into another type, with their keys. -/
theorem lastNamed_map {key : α → String} {key' : β → String} {f : α → β}
    (h : ∀ a, key' (f a) = key a) (name : String) (items : List α) :
    lastNamed key' name (items.map f) = (lastNamed key name items).map f := by
  have hp : (fun b => key' b == name) ∘ f = fun a => key a == name := by
    funext a
    simp [h]
  rw [lastNamed, lastNamed, List.filter_map, hp, List.getLast?_map]

/-- Items may be carried over in part, if those of one key are the ones that get the other. -/
theorem lastNamed_filterMap {key : α → String} {key' : β → String} {name name' : String}
    {f : α → Option β} {g : α → β}
    (h : ∀ a, (f a).filter (fun b => key' b = name') = if key a = name then some (g a) else none)
    (items : List α) :
    lastNamed key' name' (items.filterMap f) = (lastNamed key name items).map g := by
  induction items using List.reverseRecOn with
  | nil => rfl
  | append_singleton items a ih =>
    rw [List.filterMap_append, lastNamed_append_singleton]
    have ha := h a
    cases hf : f a with
    | none =>
      have hname : key a ≠ name := by
        intro hname
        rw [hf, Option.filter_none, if_pos hname] at ha
        cases ha
      rw [List.filterMap_cons_none hf, List.filterMap_nil, List.append_nil, ih, if_neg hname]
    | some b =>
      rw [hf, Option.filter_some] at ha
      rw [List.filterMap_cons_some hf, List.filterMap_nil, lastNamed_append_singleton, ih]
      by_cases hname : key a = name
      · rw [if_pos hname, Option.ite_none_right_eq_some, decide_eq_true_iff] at ha
        rw [if_pos hname, if_pos ha.1, ha.2]
        rfl
      · rw [if_neg hname, ite_eq_right_iff, decide_eq_true_iff] at ha
        rw [if_neg hname, if_neg fun hb => nomatch ha hb]

/-- Of items that pass a test, the last one of a key is the last of all, if it passes. -/
theorem lastNamed_filter_of_pos {key : α → String} {name : String} {p : α → Bool}
    {items : List α} {a : α} (h : lastNamed key name items = some a) (ha : p a = true) :
    lastNamed key name (items.filter p) = some a := by
  induction items using List.reverseRecOn with
  | nil => cases h
  | append_singleton items b ih =>
    rw [lastNamed_append_singleton] at h
    rw [List.filter_append]
    split at h
    · rename_i hname
      cases h
      rw [List.filter_cons_of_pos ha, List.filter_nil, lastNamed_append_singleton, if_pos hname]
    · rename_i hname
      by_cases hb : p b = true
      · rw [List.filter_cons_of_pos hb, List.filter_nil, lastNamed_append_singleton, if_neg hname]
        exact ih h
      · rw [List.filter_cons_of_neg hb, List.filter_nil, List.append_nil]
        exact ih h

namespace Table

/-! ## 2. Looking up -/

theorem get?_append (s t : Table α) (key : String) :
    get? (s ++ t) key = (get? s key).or (get? t key) := by
  induction s with
  | nil => rfl
  | cons e rest ih =>
    obtain ⟨k, v⟩ := e
    rw [List.cons_append, get?_cons, get?_cons, ih]
    split <;> rfl

theorem get?_eq_none {t : Table α} {key : String} (h : key ∉ keys t) : get? t key = none := by
  induction t with
  | nil => rfl
  | cons e rest ih =>
    obtain ⟨k, v⟩ := e
    rw [keys, List.map_cons, List.mem_cons, not_or] at h
    rw [get?_cons, if_neg h.1]
    exact ih h.2

theorem mem_of_get? {t : Table α} {key : String} {a : α} (h : get? t key = some a) :
    (key, a) ∈ t := by
  induction t with
  | nil => cases h
  | cons e rest ih =>
    obtain ⟨k, v⟩ := e
    rw [get?_cons] at h
    split at h
    · rename_i hk
      cases h
      exact hk ▸ List.mem_cons_self
    · exact List.mem_cons_of_mem _ (ih h)

theorem setAll_append (t : Table α) (es es' : List (String × α)) :
    setAll t (es ++ es') = setAll (setAll t es) es' :=
  List.foldl_append

theorem setAll_append_singleton (t : Table α) (entries : List (String × α)) (e : String × α) :
    setAll t (entries ++ [e]) = set (setAll t entries) e.1 e.2 :=
  setAll_append t entries [e]

/-- **Of several entries with one key the last counts**, and without one, what was there. -/
theorem get?_setAll (t : Table α) (entries : List (String × α)) (key : String) :
    get? (setAll t entries) key =
      ((lastNamed Prod.fst key entries).map Prod.snd).or (get? t key) := by
  induction entries using List.reverseRecOn with
  | nil => rfl
  | append_singleton entries e ih =>
    rw [setAll_append_singleton, get?_set, lastNamed_append_singleton, ih]
    by_cases h : e.1 = key
    · rw [if_pos h.symm, if_pos h]
      rfl
    · rw [if_neg (Ne.symm h), if_neg h]

theorem mem_of_get?_ofEntries {entries : List (String × α)} {key : String} {a : α}
    (h : get? (ofEntries entries) key = some a) : (key, a) ∈ entries := by
  rw [ofEntries, get?_setAll, get?_nil, Option.or_none, Option.map_eq_some_iff] at h
  obtain ⟨⟨k, v⟩, hlast, rfl⟩ := h
  obtain ⟨hmem, rfl⟩ := lastNamed_eq_some hlast
  exact hmem

theorem exists_get?_ofEntries_iff {entries : List (String × α)} {key : String} :
    (∃ a, get? (ofEntries entries) key = some a) ↔ ∃ a, (key, a) ∈ entries := by
  refine ⟨fun ⟨a, h⟩ => ⟨a, mem_of_get?_ofEntries h⟩, fun ⟨a, hmem⟩ => ?_⟩
  cases hlast : lastNamed Prod.fst key entries with
  | none => exact absurd rfl (lastNamed_eq_none_iff.mp hlast (key, a) hmem)
  | some e => exact ⟨e.2, by rw [ofEntries, get?_setAll, hlast]; rfl⟩

/-- **Of several items with one key the last counts.** -/
theorem get?_ofItems (key : α → String) (items : List α) (name : String) :
    get? (ofItems key items) name = lastNamed key name items := by
  rw [ofItems, ofEntries, get?_setAll, lastNamed_map (fun _ => rfl), Option.map_map, get?_nil,
    Option.or_none]
  exact Option.map_id'

/-! ## 3. Keys -/

theorem nodup_keys_set {t : Table α} (h : (keys t).Nodup) (k : String) (v : α) :
    (keys (set t k v)).Nodup := by
  rw [keys_set]
  split
  · exact h
  · rename_i hk
    rw [List.nodup_append]
    refine ⟨h, List.nodup_singleton k, ?_⟩
    intro a ha b hb
    rw [List.mem_singleton] at hb
    rintro rfl
    exact hk (hb ▸ ha)

theorem nodup_keys_setAll {t : Table α} (h : (keys t).Nodup) (entries : List (String × α)) :
    (keys (setAll t entries)).Nodup := by
  induction entries using List.reverseRecOn with
  | nil => exact h
  | append_singleton entries e ih =>
    rw [setAll_append_singleton]
    exact nodup_keys_set ih _ _

theorem nodup_keys_ofItems (key : α → String) (items : List α) :
    (keys (ofItems key items)).Nodup :=
  nodup_keys_setAll (show (keys []).Nodup from List.nodup_nil) _

/-- Entries whose keys differ are the table. -/
theorem ofEntries_of_nodup {entries : List (String × α)} (h : (keys entries).Nodup) :
    ofEntries entries = entries := by
  induction entries using List.reverseRecOn with
  | nil => rfl
  | append_singleton entries e ih =>
    rw [keys, List.map_append, List.nodup_append] at h
    have hfresh : e.1 ∉ keys entries := fun hmem =>
      h.2.2 e.1 hmem e.1 (List.mem_singleton.mpr rfl) rfl
    have hset {t : Table α} (ht : e.1 ∉ keys t) : set t e.1 e.2 = t ++ [e] := by
      induction t with
      | nil => rfl
      | cons f rest ih =>
        rw [keys, List.map_cons, List.mem_cons, not_or] at ht
        rw [set, if_neg (Ne.symm ht.1), ih ht.2]
        rfl
    rw [ofEntries, setAll_append_singleton, ← ofEntries, ih h.1, hset hfresh]

/-- In a table that holds every key once, an entry is what its key is looked up as. -/
theorem mem_iff_get? {t : Table α} (h : (keys t).Nodup) {name : String} {a : α} :
    (name, a) ∈ t ↔ get? t name = some a := by
  induction t with
  | nil => simp
  | cons e rest ih =>
    obtain ⟨k, v⟩ := e
    rw [keys, List.map_cons, List.nodup_cons] at h
    rw [List.mem_cons, get?_cons, Prod.mk.injEq]
    by_cases hk : name = k
    · subst hk
      have hrest : (name, a) ∉ rest := fun hm => h.1 (List.mem_map.mpr ⟨_, hm, rfl⟩)
      simp [hrest, eq_comm]
    · rw [if_neg hk, ← ih h.2]
      simp [hk]

/-- In such a table the last entry of a key is the only one. -/
theorem map_lastNamed_fst {t : Table α} (h : (keys t).Nodup) (name : String) :
    (lastNamed Prod.fst name t).map Prod.snd = get? t name := by
  cases hlast : lastNamed Prod.fst name t with
  | none =>
    refine (get?_eq_none fun hmem => ?_).symm
    obtain ⟨e, he, rfl⟩ := List.mem_map.mp hmem
    exact lastNamed_eq_none_iff.mp hlast e he rfl
  | some e =>
    obtain ⟨hmem, rfl⟩ := lastNamed_eq_some hlast
    exact ((mem_iff_get? h).mp hmem).symm

/-- An entry of a table of items is the last item of its key. -/
theorem mem_ofItems {key : α → String} {items : List α} {name : String} {a : α} :
    (name, a) ∈ ofItems key items ↔ lastNamed key name items = some a := by
  rw [mem_iff_get? (nodup_keys_ofItems key items), get?_ofItems]

/-- A key is there if some item has it. -/
theorem has_ofItems (key : α → String) (items : List α) (name : String) :
    has (ofItems key items) name = (lastNamed key name items).isSome := by
  rw [has, get?_ofItems]

end Table

end Steward
