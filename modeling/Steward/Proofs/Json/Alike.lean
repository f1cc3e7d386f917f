import Steward.Proofs.Json.Reading

/-!
# Documents up to the order of keys

Two documents are alike if they differ in nothing but the order of keys, at any level: numbers keep
their form, so that `1`, `1.0` and `true` are three documents.  Alike documents are those that are
equal once all keys are sorted (`alike_iff_sorted`), those with alike values under the same keys
(`alike_object_iff`), and, as a document is read back from its text, those with the same canonical
text (`canonicalText_eq_iff`).
-/

namespace Steward.Json

/-! ## 1. Alike documents -/

mutual

/-- The same document up to the order of keys. -/
def alike : Json → Json → Bool
  | .array xs, b => match b with
    | .array ys => alikeItems xs ys
    | _ => false
  | .object ms, b => match b with
    | .object ns => ms.length == ns.length && alikeMembers ms ns
    | _ => false
  | a, b => a == b

/-- Item by item. -/
def alikeItems : List Json → List Json → Bool
  | [], ys => ys.isEmpty
  | x :: xs, ys => match ys with
    | y :: ys => alike x y && alikeItems xs ys
    | [] => false

/-- Every member is found, with an alike value, among `ns`. -/
def alikeMembers : List (String × Json) → Members → Bool
  | [], _ => true
  | (k, v) :: rest, ns =>
    (match Table.get? ns k with
      | some w => alike v w
      | none => false) && alikeMembers rest ns

end

theorem keysOnce_of_get? {ms : Members} {key : String} {v : Json} (h : keysOnceMembers ms = true)
    (hget : Table.get? ms key = some v) : v.keysOnce = true :=
  keysOnceMembers_iff.mp h _ (Table.mem_of_get? hget)

/-! ## 2. Sorting -/

theorem sortedItems_eq_map (vs : List Json) : sortedItems vs = vs.map sorted := by
  induction vs with
  | nil => rfl
  | cons v vs ih => rw [sortedItems, List.map_cons, ih]

theorem sortedMembers_eq_map (ms : Members) :
    sortedMembers ms = ms.map fun m => (m.1, m.2.sorted) := by
  induction ms with
  | nil => rfl
  | cons m ms ih => rw [sortedMembers, List.map_cons, ih]

theorem sortedMembers_append (ms ns : Members) :
    sortedMembers (ms ++ ns) = sortedMembers ms ++ sortedMembers ns := by
  rw [sortedMembers_eq_map, sortedMembers_eq_map, sortedMembers_eq_map, List.map_append]

theorem keys_sortedMembers (ms : Members) : Table.keys (sortedMembers ms) = Table.keys ms := by
  rw [sortedMembers_eq_map, Table.keys, Table.keys, List.map_map]
  rfl

theorem get?_sortedMembers (ms : Members) (key : String) :
    Table.get? (sortedMembers ms) key = (Table.get? ms key).map sorted := by
  induction ms with
  | nil => rfl
  | cons m ms ih =>
    obtain ⟨k, v⟩ := m
    rw [sortedMembers, Table.get?_cons, Table.get?_cons, ih]
    split <;> rfl

theorem sortMembers_perm (ms : Members) : (sortMembers ms).Perm ms := List.mergeSort_perm ..

theorem nodup_keys_sortMembers {ms : Members} :
    (Table.keys (sortMembers ms)).Nodup ↔ (Table.keys ms).Nodup :=
  ((sortMembers_perm ms).map Prod.fst).nodup_iff

theorem get?_sortMembers {ms : Members} (h : (Table.keys ms).Nodup) (key : String) :
    Table.get? (sortMembers ms) key = Table.get? ms key := by
  refine Option.ext fun v => ?_
  rw [← Table.mem_iff_get? h, ← Table.mem_iff_get? (nodup_keys_sortMembers.mpr h)]
  exact (sortMembers_perm ms).mem_iff

theorem pairwise_sortMembers (ms : Members) :
    (sortMembers ms).Pairwise fun m n => decide (m.1 ≤ n.1) = true := by
  refine List.pairwise_mergeSort (fun a b c hab hbc => ?_) (fun a b => ?_) ms
  · rw [decide_eq_true_iff] at hab hbc ⊢
    exact String.le_trans hab hbc
  · rw [Bool.or_eq_true, decide_eq_true_iff, decide_eq_true_iff]
    exact String.le_total a.1 b.1

/-- Members that are in order stay where they are. -/
theorem sortMembers_eq_self {ms : Members}
    (h : ms.Pairwise fun m n => decide (m.1 ≤ n.1) = true) : sortMembers ms = ms :=
  List.mergeSort_of_pairwise h

/-- Sorted members are the same if they are under the same keys. -/
theorem sortMembers_eq_iff {ms ns : Members} (hms : (Table.keys ms).Nodup)
    (hns : (Table.keys ns).Nodup) :
    sortMembers ms = sortMembers ns ↔ ∀ key, Table.get? ms key = Table.get? ns key := by
  constructor
  · intro h key
    rw [← get?_sortMembers hms, h, get?_sortMembers hns]
  · intro h
    have hperm : ms.Perm ns := by
      refine (List.perm_ext_iff_of_nodup (List.Nodup.of_map _ hms) (List.Nodup.of_map _ hns)).mpr ?_
      rintro ⟨key, v⟩
      rw [Table.mem_iff_get? hms, Table.mem_iff_get? hns, h]
    have hsorted : (sortMembers ms).Perm (sortMembers ns) :=
      (sortMembers_perm ms).trans (hperm.trans (sortMembers_perm ns).symm)
    refine hsorted.eq_of_pairwise ?_ (pairwise_sortMembers ms) (pairwise_sortMembers ns)
    rintro ⟨k, v⟩ ⟨l, w⟩ hv hw hkl hlk
    -- two members of one key are one member, as no key is there twice
    obtain rfl : k = l := String.le_antisymm (of_decide_eq_true hkl) (of_decide_eq_true hlk)
    have hnodup := nodup_keys_sortMembers.mpr hms
    rw [Table.mem_iff_get? hnodup] at hv
    rw [← hsorted.mem_iff, Table.mem_iff_get? hnodup, hv] at hw
    cases hw
    rfl

theorem sorted_object_iff {ms ns : Members} (hms : (Table.keys ms).Nodup)
    (hns : (Table.keys ns).Nodup) :
    (Json.object ms).sorted = (Json.object ns).sorted ↔
      ∀ key, (Table.get? ms key).map sorted = (Table.get? ns key).map sorted := by
  rw [sorted, sorted, Json.object.injEq, sortMembers_eq_iff, forall_congr']
  · intro key
    rw [get?_sortedMembers, get?_sortedMembers]
  · rwa [keys_sortedMembers]
  · rwa [keys_sortedMembers]

/-! ## 3. Alike is equal when sorted -/

/-- Two objects have alike values under the same keys, counted from one side. -/
theorem forall_get?_sorted_iff {ms ns : Members} (hms : (Table.keys ms).Nodup)
    (hns : (Table.keys ns).Nodup) :
    (∀ key, (Table.get? ms key).map sorted = (Table.get? ns key).map sorted) ↔
      ms.length = ns.length ∧
        ∀ m ∈ ms, ∃ w, Table.get? ns m.1 = some w ∧ m.2.sorted = w.sorted := by
  have hkeys {ts : Members} (hts : (Table.keys ts).Nodup) (key : String) :
      key ∈ Table.keys ts ↔ (Table.get? ts key).isSome := by
    rw [Option.isSome_iff_exists, Table.keys, List.mem_map, Prod.exists]
    constructor
    · rintro ⟨k, v, hmem, rfl⟩
      exact ⟨v, (Table.mem_iff_get? hts).mp hmem⟩
    · rintro ⟨v, hget⟩
      exact ⟨key, v, Table.mem_of_get? hget, rfl⟩
  have hlength (ts : Members) : ts.length = (Table.keys ts).length := (List.length_map _).symm
  constructor
  · intro h
    constructor
    · rw [hlength, hlength]
      refine ((List.perm_ext_iff_of_nodup hms hns).mpr fun key => ?_).length_eq
      have hsome := congrArg Option.isSome (h key)
      rw [Option.isSome_map, Option.isSome_map] at hsome
      rw [hkeys hms, hkeys hns, hsome]
    · rintro ⟨key, v⟩ hmem
      have hkey := h key
      rw [(Table.mem_iff_get? hms).mp hmem, Option.map_some, eq_comm,
        Option.map_eq_some_iff] at hkey
      obtain ⟨w, hget, hw⟩ := hkey
      exact ⟨w, hget, hw.symm⟩
  · rintro ⟨hsize, h⟩ key
    cases hget : Table.get? ms key with
    | some v =>
      obtain ⟨w, hw, hsame⟩ := h (key, v) (Table.mem_of_get? hget)
      rw [hw, Option.map_some, Option.map_some, hsame]
    | none =>
      -- as many keys, and all of them there: so there is none besides
      have hsub : Table.keys ms ⊆ Table.keys ns := by
        intro k hk
        obtain ⟨⟨_, v⟩, hmem, rfl⟩ := List.mem_map.mp hk
        obtain ⟨w, hw, -⟩ := h _ hmem
        exact (hkeys hns _).mpr (Option.isSome_of_eq_some hw)
      rw [hlength, hlength] at hsize
      have hperm := (List.subperm_of_subset hms hsub).perm_of_length_le hsize.ge
      have habsent : key ∉ Table.keys ns := by
        rw [← hperm.mem_iff, hkeys hms, hget]
        exact Bool.false_ne_true
      rw [Table.get?_eq_none habsent]

mutual

theorem alike_iff_sorted : ∀ {v w : Json}, v.keysOnce = true → w.keysOnce = true →
    (alike v w = true ↔ v.sorted = w.sorted)
  | .array xs, w, hv, hw => by
    cases w with
    | array ys =>
      rw [alike, alikeItems_iff_sorted hv hw, sorted, sorted, Json.array.injEq]
    | _ => simp [alike, sorted]
  | .object ms, w, hv, hw => by
    cases w with
    | object ns =>
      rw [keysOnce, Bool.and_eq_true, decide_eq_true_iff] at hv hw
      rw [alike, Bool.and_eq_true, beq_iff_eq, alikeMembers_iff_sorted hv.2 hw.2,
        sorted_object_iff hv.1 hw.1, forall_get?_sorted_iff hv.1 hw.1]
    | _ => simp [alike, sorted]
  | .null, w, _, _ => by cases w <;> simp [alike, sorted]
  | .bool _, w, _, _ => by cases w <;> simp [alike, sorted]
  | .int _, w, _, _ => by cases w <;> simp [alike, sorted]
  | .float _, w, _, _ => by cases w <;> simp [alike, sorted]
  | .string _, w, _, _ => by cases w <;> simp [alike, sorted]

theorem alikeItems_iff_sorted : ∀ {vs ws : List Json}, keysOnceItems vs = true →
    keysOnceItems ws = true → (alikeItems vs ws = true ↔ sortedItems vs = sortedItems ws)
  | [], ws, _, _ => by cases ws <;> simp [alikeItems, sortedItems]
  | v :: vs, ws, hv, hw => by
    cases ws with
    | nil => simp [alikeItems, sortedItems]
    | cons w ws =>
      rw [keysOnceItems, Bool.and_eq_true] at hv hw
      rw [alikeItems, Bool.and_eq_true, alike_iff_sorted hv.1 hw.1,
        alikeItems_iff_sorted hv.2 hw.2, sortedItems, sortedItems, List.cons.injEq]

theorem alikeMembers_iff_sorted : ∀ {ms : List (String × Json)} {ns : Members},
    keysOnceMembers ms = true → keysOnceMembers ns = true → (alikeMembers ms ns = true ↔
      ∀ m ∈ ms, ∃ w, Table.get? ns m.1 = some w ∧ m.2.sorted = w.sorted)
  | [], _, _, _ => iff_of_true rfl (List.forall_mem_nil _)
  | (k, v) :: ms, ns, hm, hn => by
    rw [keysOnceMembers, Bool.and_eq_true] at hm
    rw [alikeMembers, Bool.and_eq_true, alikeMembers_iff_sorted hm.2 hn, List.forall_mem_cons]
    refine and_congr_left fun _ => ?_
    cases hget : Table.get? ns k with
    | none => simp
    | some w =>
      have hw := keysOnce_of_get? hn hget
      rw [alike_iff_sorted hm.1 hw]
      simp

end

/-- **Alike objects** have alike values under the same keys. -/
theorem alike_object_iff {ms ns : Members} (hms : (Json.object ms).keysOnce = true)
    (hns : (Json.object ns).keysOnce = true) :
    alike (.object ms) (.object ns) = true ↔
      ∀ key, Option.Rel (fun v w => alike v w = true) (Table.get? ms key) (Table.get? ns key) := by
  rw [alike_iff_sorted hms hns]
  rw [keysOnce, Bool.and_eq_true, decide_eq_true_iff] at hms hns
  rw [sorted_object_iff hms.1 hns.1]
  refine forall_congr' fun key => ?_
  cases hv : Table.get? ms key with
  | none =>
    cases Table.get? ns key with
    | none => exact iff_of_true rfl .none
    | some w => exact iff_of_false (fun h => nomatch h) (fun h => nomatch h)
  | some v =>
    cases hw : Table.get? ns key with
    | none => exact iff_of_false (fun h => nomatch h) (fun h => nomatch h)
    | some w =>
      have halike := alike_iff_sorted (keysOnce_of_get? hms.2 hv) (keysOnce_of_get? hns.2 hw)
      rw [Option.map_some, Option.map_some, Option.some_inj, ← halike]
      exact ⟨fun h => .some h, fun | .some h => h⟩

theorem alike_refl {v : Json} (h : v.keysOnce = true) : alike v v = true :=
  (alike_iff_sorted h h).mpr rfl

/-! ## 4. What sorting keeps -/

/-- What is said of a document level by level, and of the keys of an object whatever their order,
holds of the sorted document as well. -/
theorem sorted_iff {P : Nat → Json → Prop} {K : List String → Prop}
    (hkeys : ∀ ks ls : List String, ks.Perm ls → K ks → K ls)
    (harray : ∀ n vs, P n (.array vs) ↔ n ≠ 0 ∧ ∀ v ∈ vs, P (n - 1) v)
    (hobject : ∀ n ms, P n (.object ms) ↔
      n ≠ 0 ∧ K (Table.keys ms) ∧ ∀ m ∈ ms, P (n - 1) m.2)
    (n : Nat) (v : Json) : P n v.sorted ↔ P n v := by
  induction n generalizing v with
  | zero =>
    cases v with
    | array vs => simp only [sorted, harray, ne_eq, not_true_eq_false, false_and]
    | object ms => simp only [sorted, hobject, ne_eq, not_true_eq_false, false_and]
    | _ => exact Iff.rfl
  | succ n ih =>
    cases v with
    | array vs =>
      rw [sorted, harray, harray, sortedItems_eq_map, List.forall_mem_map]
      exact and_congr_right fun _ => forall₂_congr fun v _ => ih v
    | object ms =>
      have hperm := sortMembers_perm (sortedMembers ms)
      have hks : (Table.keys (sortMembers (sortedMembers ms))).Perm (Table.keys ms) := by
        rw [← keys_sortedMembers ms]
        exact hperm.map Prod.fst
      have hvalues : (∀ m ∈ sortMembers (sortedMembers ms), P n m.2) ↔ ∀ m ∈ ms, P n m.2 := by
        simp only [hperm.mem_iff]
        rw [sortedMembers_eq_map, List.forall_mem_map]
        exact forall₂_congr fun m _ => ih m.2
      rw [sorted, hobject, hobject, Nat.add_sub_cancel, hvalues]
      exact and_congr_right fun _ => and_congr_left fun _ => ⟨hkeys _ _ hks, hkeys _ _ hks.symm⟩
    | _ => exact Iff.rfl

theorem readable_sorted_iff {room : Nat} {v : Json} : Readable room v.sorted ↔ Readable room v :=
  sorted_iff (fun _ _ h => h.nodup_iff.mp) (fun _ _ => readable_array_iff)
    (fun _ _ => readable_object_iff) room v

theorem height_array_le_iff {n : Nat} {vs : List Json} :
    (Json.array vs).height ≤ n ↔ n ≠ 0 ∧ ∀ v ∈ vs, v.height ≤ n - 1 := by
  have hitems (k : Nat) : heightOfItems vs ≤ k ↔ ∀ v ∈ vs, v.height ≤ k := by
    induction vs with
    | nil => exact iff_of_true (Nat.zero_le k) (List.forall_mem_nil _)
    | cons v vs ih => rw [heightOfItems, Nat.max_le, ih, List.forall_mem_cons]
  rw [height, ← hitems]
  omega

theorem height_object_le_iff {n : Nat} {ms : Members} :
    (Json.object ms).height ≤ n ↔ n ≠ 0 ∧ ∀ m ∈ ms, m.2.height ≤ n - 1 := by
  have hmembers (k : Nat) : heightOfMembers ms ≤ k ↔ ∀ m ∈ ms, m.2.height ≤ k := by
    induction ms with
    | nil => exact iff_of_true (Nat.zero_le k) (List.forall_mem_nil _)
    | cons m ms ih => rw [heightOfMembers, Nat.max_le, ih, List.forall_mem_cons]
  rw [height, ← hmembers]
  omega

theorem height_sorted (v : Json) : v.sorted.height = v.height := by
  refine eq_of_forall_ge_iff fun n => ?_
  refine sorted_iff (P := fun n v => v.height ≤ n) (K := fun _ => True) (fun _ _ _ _ => trivial)
    (fun _ _ => height_array_le_iff) (fun n ms => ?_) n v
  rw [height_object_le_iff, true_and]

theorem depth_sorted (v : Json) : v.sorted.depth = v.depth := by
  refine eq_of_forall_ge_iff fun n => ?_
  refine sorted_iff (P := fun n v => v.depth ≤ n) (K := fun _ => True) (fun _ _ _ _ => trivial)
    (fun _ _ => depth_array_le_iff) (fun n ms => ?_) n v
  rw [depth_object_le_iff, true_and]

theorem printable_sorted (v : Json) : v.sorted.printable = v.printable := by
  have h := sorted_iff (P := fun n v => v.printable = true ∧ v.height ≤ n) (K := fun _ => True)
    (fun _ _ _ _ => trivial) (fun n vs => ?_) (fun n ms => ?_) v.height v
  · rw [height_sorted, and_iff_left (Nat.le_refl _), and_iff_left (Nat.le_refl _)] at h
    exact Bool.eq_iff_iff.mpr h
  · rw [printable, printableItems_iff, height_array_le_iff, forall₂_and]
    exact and_left_comm
  · rw [printable, printableMembers_iff, height_object_le_iff, true_and, forall₂_and]
    exact and_left_comm

/-- A document with sorted keys is written where the document is. -/
theorem obstacle?_sorted_eq_none_iff {v : Json} {room : Nat} :
    v.sorted.obstacle? room = none ↔ v.obstacle? room = none := by
  rw [obstacle?_eq_none_iff, obstacle?_eq_none_iff, depth_sorted, printable_sorted]

/-- **The canonical text is written of the sorted document**, or none for the same reason. -/
theorem canonicalDump_eq [Room] (v : Json) : v.canonicalDump = v.sorted.dump := by
  rw [canonicalDump, dump]
  cases hv : v.obstacle? Room.writing with
  | none =>
    rw [obstacle?_sorted_eq_none_iff.mpr hv]
    rfl
  | some e =>
    cases hsorted : v.sorted.obstacle? Room.writing with
    | none =>
      rw [obstacle?_sorted_eq_none_iff, hv] at hsorted
      cases hsorted
    | some e' => rfl

section Canonical

variable {room more : Nat} {v w : Json}

/-- Alike documents are nested equally deep. -/
theorem depth_eq_of_alike (hv : Readable room v) (hw : Readable more w) (h : alike v w = true) :
    v.depth = w.depth := by
  rw [alike_iff_sorted hv.keysOnce hw.keysOnce] at h
  rw [← depth_sorted, h, depth_sorted]

/-- The text of a document is the text of no other, however deep they are nested. -/
theorem text_inj (hv : Readable room v) (hw : Readable more w) (h : v.text = w.text) : v = w := by
  have hparse := congrArg (fun s => parseChars (max v.depth w.depth) s.toList) h
  simp only [text, String.toList_ofList] at hparse
  rw [parseChars_chars (hv.of_depth (le_max_left ..)),
    parseChars_chars (hw.of_depth (le_max_right ..))] at hparse
  exact Except.ok.inj hparse

/-- **Canonical text identifies documents** up to the order of keys. -/
theorem canonicalText_eq_iff (hv : Readable room v) (hw : Readable more w) :
    v.canonicalText = w.canonicalText ↔ alike v w = true := by
  rw [alike_iff_sorted hv.keysOnce hw.keysOnce]
  constructor
  · exact text_inj (readable_sorted_iff.mpr hv) (readable_sorted_iff.mpr hw)
  · exact congrArg text

end Canonical

end Steward.Json
