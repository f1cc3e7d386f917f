import Steward.Proofs.Status.Condition

/-!
# Setting a condition is an upsert

A list of conditions may come from anywhere, so a type may be there more than once and an entry may
have no time.  Looking a type up (`find_condition`) takes its first entry, and replacing it
(`set_condition`) takes all of them; the two meet in `set_upserts`: whatever list it is given,
setting the status of a type replaces every entry of the type where it stands, or appends one,
leaves all others alone, and keeps the time since which the first entry has had the status.
-/

namespace Steward.Conditions

variable {cs : Conditions} {c d : Condition} {type : String}

/-! ## 1. Types that are there -/

theorem isSome_find?_iff : (cs.find? type).isSome = true ↔ type ∈ cs.map (·.type) := by
  rw [find?, List.find?_isSome, List.mem_map]
  simp only [beq_iff_eq]

/-- What is put in the place of an entry of a list that has the type of `c`. -/
def replacement (c d : Condition) : Condition := if d.type = c.type then c else d

theorem type_replacement (c d : Condition) : (replacement c d).type = d.type := by
  rw [replacement]
  split
  · rename_i h
    exact h.symm
  · rfl

theorem put_of_mem (h : c.type ∈ cs.map (·.type)) : cs.put c = cs.map (replacement c) :=
  if_pos (isSome_find?_iff.mpr h)

theorem put_of_notMem (h : c.type ∉ cs.map (·.type)) : cs.put c = cs ++ [c] :=
  if_neg fun hsome => h (isSome_find?_iff.mp hsome)

theorem mem_types_put (cs : Conditions) (c : Condition) : c.type ∈ (cs.put c).map (·.type) :=
  isSome_find?_iff.mp (Option.isSome_iff_exists.mpr ⟨c, find?_put_self cs c⟩)

theorem mem_types_put_of_mem (c : Condition) (h : type ∈ cs.map (·.type)) :
    type ∈ (cs.put c).map (·.type) := by
  rw [types_put]
  split
  · exact h
  · exact List.mem_append_left _ h

/-! ## 2. Putting twice -/

/-- A condition that was put is put for good. -/
theorem put_put_self (cs : Conditions) (c : Condition) : (cs.put c).put c = cs.put c := by
  rw [put_of_mem (mem_types_put cs c)]
  have hkept : ∀ d ∈ cs.put c, d.type = c.type → d = c := by
    intro d hd htype
    by_cases hmem : c.type ∈ cs.map (·.type)
    · rw [put_of_mem hmem] at hd
      obtain ⟨e, -, rfl⟩ := List.mem_map.mp hd
      rw [type_replacement] at htype
      exact if_pos htype
    · rw [put_of_notMem hmem] at hd
      rcases List.mem_append.mp hd with hd | hd
      · exact absurd (htype ▸ List.mem_map_of_mem hd) hmem
      · exact List.mem_singleton.mp hd
  have hsame : ∀ d ∈ cs.put c, replacement c d = d := by
    intro d hd
    rw [replacement]
    split
    · rename_i htype
      exact (hkept d hd htype).symm
    · rfl
  rw [List.map_congr_left hsame, List.map_id']

theorem replacement_comm (hne : c.type ≠ d.type) (e : Condition) :
    replacement d (replacement c e) = replacement c (replacement d e) := by
  by_cases hc : e.type = c.type
  · simp [replacement, hc, hne]
  · by_cases hd : e.type = d.type
    · simp [replacement, hd, hne.symm]
    · simp [replacement, hc, hd]

/-- Conditions of two types that are there may be put in any order. -/
theorem put_put_comm (hne : c.type ≠ d.type) (hc : c.type ∈ cs.map (·.type))
    (hd : d.type ∈ cs.map (·.type)) : (cs.put c).put d = (cs.put d).put c := by
  rw [put_of_mem (mem_types_put_of_mem c hd), put_of_mem (mem_types_put_of_mem d hc),
    put_of_mem hc, put_of_mem hd, List.map_map, List.map_map]
  exact List.map_congr_left fun e _ => replacement_comm hne e

/-! ## 3. The first entry of a type -/

/-- The first entry of a type. -/
def First (cs : Conditions) (type : String) (c : Condition) : Prop :=
  ∃ before after, cs = before ++ c :: after ∧ c.type = type ∧ ∀ d ∈ before, d.type ≠ type

theorem find?_eq_some_iff : cs.find? type = some c ↔ cs.First type c := by
  rw [find?, List.find?_eq_some_iff_append]
  constructor
  · rintro ⟨htype, before, after, hcs, hbefore⟩
    refine ⟨before, after, hcs, beq_iff_eq.mp htype, fun d hd heq => ?_⟩
    have hd' := hbefore d hd
    rw [heq, beq_self_eq_true] at hd'
    cases hd'
  · rintro ⟨before, after, hcs, htype, hbefore⟩
    refine ⟨beq_iff_eq.mpr htype, before, after, hcs, fun d hd => ?_⟩
    rw [beq_false_of_ne (hbefore d hd)]
    rfl

/-- The time `since` is that of the first entry of the type, if it has the status and a time, and
`now` otherwise. -/
structure Since (cs : Conditions) (type status : String) (now since : Timestamp) : Prop where
  kept : ∀ c t, cs.First type c → c.status = status → c.lastTransition = some t → since = t
  moved : (∀ c, cs.First type c → c.status = status → c.lastTransition = none) → since = now

theorem since_transitionTime (cs : Conditions) (type status : String) (now : Timestamp) :
    cs.Since type status now (cs.transitionTime type status now) where
  kept c t hc hstatus ht := by
    rw [transitionTime, find?_eq_some_iff.mpr hc]
    simp only [hstatus, ht, if_true, Option.getD_some]
  moved hnone := by
    rw [transitionTime]
    cases hc : cs.find? type with
    | none => rfl
    | some c =>
      dsimp only
      split
      · rename_i hstatus
        rw [hnone c (find?_eq_some_iff.mp hc) hstatus, Option.getD_none]
      · rfl

/-! ## 4. The upsert -/

/-- `out` is the list with `c` in it: in the place of every entry of its type, or else at the
end. -/
structure Upserts (cs : Conditions) (c : Condition) (out : Conditions) : Prop where
  /-- Entries of other types keep their values and their order. -/
  others : out.filter (·.type ≠ c.type) = cs.filter (·.type ≠ c.type)
  /-- Nothing moves where the type is there. -/
  present : c.type ∈ cs.map (·.type) → out.length = cs.length ∧
    ∀ (i : Nat) (d : Condition), cs[i]? = some d → out[i]? = some (if d.type = c.type then c else d)
  absent : c.type ∉ cs.map (·.type) → out = cs ++ [c]
  found : out.find? c.type = some c

theorem upserts_put (cs : Conditions) (c : Condition) : Upserts cs c (cs.put c) where
  others := filter_put cs (p := fun type => decide (type ≠ c.type)) (by simp)
  present h := by
    rw [put_of_mem h]
    refine ⟨List.length_map _, fun i d hd => ?_⟩
    rw [List.getElem?_map, hd]
    rfl
  absent := put_of_notMem
  found := find?_put_self cs c

section

variable {status reason message : String} {generation : Option Int} {now : Timestamp}

/-- Once a status is set, setting it again at another time changes nothing. -/
theorem set_set_self (cs : Conditions) (later : Timestamp) :
    (cs.set type status reason message generation now).set type status reason message generation
      later = cs.set type status reason message generation now := by
  have htime : (cs.set type status reason message generation now).transitionTime type status later =
      cs.transitionTime type status now := by
    rw [transitionTime, find?_set_self]
    exact if_pos rfl
  rw [set, htime]
  exact put_put_self cs _

theorem set_set_comm {type' status' reason' message' : String} {generation' : Option Int}
    {now' : Timestamp} (hne : type ≠ type') (h : type ∈ cs.map (·.type))
    (h' : type' ∈ cs.map (·.type)) :
    (cs.set type status reason message generation now).set type' status' reason' message'
        generation' now' =
      (cs.set type' status' reason' message' generation' now').set type status reason message
        generation now := by
  have htime : (cs.set type status reason message generation now).transitionTime type' status' now' =
      cs.transitionTime type' status' now' :=
    transitionTime_congr (find?_set_of_ne cs hne.symm)
  have htime' : (cs.set type' status' reason' message' generation' now').transitionTime type status
      now = cs.transitionTime type status now :=
    transitionTime_congr (find?_set_of_ne cs hne)
  rw [set, htime]
  conv => rhs; rw [set, htime']
  exact put_put_comm hne h h'

end

/-- **Setting a condition is an upsert that keeps the order.**  Whatever the list, every entry of the
type becomes the new condition, or else the condition is appended, and nothing else changes; the time
is that since which the first entry has had the status.  Setting the status again later changes
nothing, types that are there once stay so, and two types that are there may be set in any order. -/
theorem set_upserts (cs : Conditions) (type status reason message : String)
    (generation : Option Int) (now : Timestamp) :
    let out := cs.set type status reason message generation now
    (∃ since, Since cs type status now since ∧
      Upserts cs ⟨type, status, reason, message, generation, some since⟩ out) ∧
    (∀ later, out.set type status reason message generation later = out) ∧
    ((cs.map (·.type)).Nodup → (out.map (·.type)).Nodup) ∧
    ∀ (type' status' reason' message' : String) (generation' : Option Int) (now' : Timestamp),
      type ≠ type' → type ∈ cs.map (·.type) → type' ∈ cs.map (·.type) →
      out.set type' status' reason' message' generation' now' =
        (cs.set type' status' reason' message' generation' now').set type status reason message
          generation now := by
  intro out
  refine ⟨⟨_, since_transitionTime cs type status now, upserts_put cs _⟩, set_set_self cs,
    fun h => nodup_types_put h _, ?_⟩
  intro type' status' reason' message' generation' now' hne h h'
  exact set_set_comm hne h h'

/-- Two entries of one type: the status of the first is kept, but it has no time. -/
def repeated : Conditions :=
  [⟨"Ready", "False", "", "", none, none⟩, ⟨"Synced", "True", "", "", some 1, none⟩,
    ⟨"Ready", "True", "", "", some 1, some ⟨2024, 1, 1, 0, 0, 0, 0, some 0⟩⟩]

/-- Both entries are replaced, the time is the new one, and the other type may be set before; a type
that was there once still is. -/
theorem set_upserts_repeated :
    let now : Timestamp := ⟨2025, 1, 1, 0, 0, 0, 0, some 0⟩
    let unready : Condition := ⟨"Ready", "False", "Down", "", some 2, some now⟩
    let synced : Condition := ⟨"Synced", "False", "Down", "", some 2, some now⟩
    let out := repeated.set "Ready" "False" "Down" "" (some 2) now
    out = [unready, ⟨"Synced", "True", "", "", some 1, none⟩, unready] ∧
      (repeated.set "Synced" "False" "Down" "" (some 2) now).set "Ready" "False" "Down" "" (some 2)
        now = [unready, synced, unready] ∧
      (("Synced" ≠ "Ready") ∧ "Synced" ∈ repeated.map (·.type) ∧ "Ready" ∈ repeated.map (·.type)) ∧
      ([unready].map (·.type)).Nodup ∧
      ((set [unready] "Synced" "False" "Down" "" (some 2) now).map (·.type)).Nodup := by
  intro now unready synced out
  obtain ⟨-, -, -, hcomm⟩ := set_upserts repeated "Synced" "False" "Down" "" (some 2) now
  obtain ⟨-, -, hnodup, -⟩ := set_upserts [unready] "Synced" "False" "Down" "" (some 2) now
  have hmem : "Synced" ∈ repeated.map (·.type) ∧ "Ready" ∈ repeated.map (·.type) := by decide
  refine ⟨by decide, ?_, ⟨by decide, hmem⟩, by decide, hnodup (by decide)⟩
  rw [hcomm "Ready" "False" "Down" "" (some 2) now (by decide) hmem.1 hmem.2]
  decide

end Steward.Conditions
