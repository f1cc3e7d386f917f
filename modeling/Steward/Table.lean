/-!
# Tables

A table holds one value per key and keeps its keys in the order in which they first came.  It is
the list of its entries; `Table.set` never lets a key occur twice.

This is a `dict`, which keeps the order of insertion.
-/

namespace Steward

/-- Entries in the order of their keys' first appearance. -/
abbrev Table (α : Type) := List (String × α)

namespace Table

variable {α β : Type}

/-! ## 1. Operations -/

/-- The value of a key. -/
def get? (t : Table α) (key : String) : Option α := t.lookup key

/-- The keys in order. -/
def keys (t : Table α) : List String := t.map Prod.fst

/-- The key is there. -/
def has (t : Table α) (key : String) : Bool := (get? t key).isSome

/-- Give a key a value: where it stands if it is there, else at the end. -/
def set (t : Table α) (key : String) (value : α) : Table α :=
  match t with
  | [] => [(key, value)]
  | (k, v) :: rest => if k = key then (k, value) :: rest else (k, v) :: set rest key value

/-- Remove a key. -/
def erase (t : Table α) (key : String) : Table α := t.filter fun e => e.1 != key

/-- Set entries one after the other; of entries with one key, the first gives the place and the
last the value. -/
def setAll (t : Table α) (entries : List (String × α)) : Table α :=
  entries.foldl (fun t e => set t e.1 e.2) t

/-- A table from entries. -/
def ofEntries (entries : List (String × α)) : Table α := setAll [] entries

/-- A table of items under their own keys. -/
def ofItems (key : α → String) (items : List α) : Table α :=
  ofEntries (items.map fun a => (key a, a))

/-! ## 2. Looking up what was set -/

@[simp] theorem get?_nil (key : String) : get? ([] : Table α) key = none := rfl

theorem get?_cons (k : String) (v : α) (t : Table α) (key : String) :
    get? ((k, v) :: t) key = if key = k then some v else get? t key := by
  by_cases h : key = k
  · simp [get?, h]
  · have : (key == k) = false := by simp [h]
    simp [get?, List.lookup_cons, h, this]

theorem get?_set (t : Table α) (k key : String) (v : α) :
    get? (set t k v) key = if key = k then some v else get? t key := by
  induction t with
  | nil => simp [set, get?_cons]
  | cons e rest ih =>
    obtain ⟨l, w⟩ := e
    by_cases hl : l = k
    · subst hl
      simp only [set, if_true, get?_cons]
      by_cases h : key = l <;> simp [h]
    · simp only [set, if_neg hl, get?_cons, ih]
      by_cases h : key = l
      · subst h
        simp [hl]
      · simp [h]

theorem keys_set (t : Table α) (k : String) (v : α) :
    keys (set t k v) = if k ∈ keys t then keys t else keys t ++ [k] := by
  induction t with
  | nil => simp [set, keys]
  | cons e rest ih =>
    obtain ⟨l, w⟩ := e
    by_cases hl : l = k
    · subst hl
      simp [set, keys]
    · simp only [keys] at ih
      simp only [set, if_neg hl, keys, List.map_cons, ih, List.mem_cons]
      by_cases hk : k ∈ List.map Prod.fst rest
      · simp [hk]
      · simp [hk, Ne.symm hl]

end Table

end Steward
