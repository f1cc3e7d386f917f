import Mathlib.Data.List.Nodup
import Steward.Status.Condition

/-!
# Conditions by type

What is found under a type after a condition was set: the condition itself under its own type, and
under any other type what was found before.  No type comes to be there twice.
-/

namespace Steward.Conditions

variable {cs : Conditions} {c : Condition} {type : String}

/-! ## 1. Putting a condition -/

/-- Replacing the conditions of one type is not seen under another. -/
theorem find?_map_replace_of_ne (cs : Conditions) (h : type ≠ c.type) :
    find? (cs.map fun d => if d.type = c.type then c else d) type = cs.find? type := by
  induction cs with
  | nil => rfl
  | cons d cs ih =>
    rw [List.map_cons, find?, find?, List.find?_cons, List.find?_cons]
    by_cases hd : d.type = c.type
    · have hc : (c.type == type) = false := beq_false_of_ne (Ne.symm h)
      have hd' : (d.type == type) = false := beq_false_of_ne (hd ▸ Ne.symm h)
      rw [if_pos hd, hc, hd']
      exact ih
    · rw [if_neg hd]
      cases d.type == type with
      | true => rfl
      | false => exact ih

theorem find?_map_replace_self (h : (cs.find? c.type).isSome) :
    find? (cs.map fun d => if d.type = c.type then c else d) c.type = some c := by
  induction cs with
  | nil => cases h
  | cons d cs ih =>
    rw [List.map_cons, find?, List.find?_cons]
    by_cases hd : d.type = c.type
    · rw [if_pos hd, beq_self_eq_true]
    · have hd' : (d.type == c.type) = false := beq_false_of_ne hd
      rw [if_neg hd, hd']
      refine ih ?_
      rw [find?, List.find?_cons, hd'] at h
      exact h

theorem find?_put_self (cs : Conditions) (c : Condition) : (cs.put c).find? c.type = some c := by
  rw [put]
  split
  · rename_i h
    exact find?_map_replace_self h
  · rename_i h
    rw [Option.not_isSome_iff_eq_none] at h
    rw [find?, List.find?_append, ← find?, h, Option.none_or, List.find?_cons, beq_self_eq_true]

theorem find?_put_of_ne (cs : Conditions) (h : type ≠ c.type) :
    (cs.put c).find? type = cs.find? type := by
  rw [put]
  split
  · exact find?_map_replace_of_ne cs h
  · have hc : (c.type == type) = false := beq_false_of_ne (Ne.symm h)
    rw [find?, List.find?_append, List.find?_cons, hc, List.find?_nil, Option.or_none]
    rfl

theorem filter_map_replace (cs : Conditions) {p : String → Bool} (h : p c.type = false) :
    (cs.map fun d => if d.type = c.type then c else d).filter (fun d => p d.type) =
      cs.filter fun d => p d.type := by
  induction cs with
  | nil => rfl
  | cons d cs ih =>
    rw [List.map_cons, List.filter_cons, List.filter_cons, ih]
    by_cases hd : d.type = c.type
    · rw [if_pos hd, h, hd, h]
      rfl
    · rw [if_neg hd]

/-- Conditions of other types stay as they are, in their order. -/
theorem filter_put (cs : Conditions) {p : String → Bool} (h : p c.type = false) :
    (cs.put c).filter (fun d => p d.type) = cs.filter fun d => p d.type := by
  rw [put]
  split
  · exact filter_map_replace cs h
  · rw [List.filter_append, List.filter_cons, h, List.filter_nil]
    exact List.append_nil _

/-! ## 2. Setting a status -/

variable {status reason message : String} {generation : Option Int} {now : Timestamp}

theorem find?_set_self (cs : Conditions) :
    (cs.set type status reason message generation now).find? type =
      some ⟨type, status, reason, message, generation,
        some (cs.transitionTime type status now)⟩ :=
  find?_put_self cs _

theorem find?_set_of_ne (cs : Conditions) {other : String} (h : other ≠ type) :
    (cs.set type status reason message generation now).find? other = cs.find? other :=
  find?_put_of_ne cs h

/-- The transition time of a type depends on what is found under it only. -/
theorem transitionTime_congr {ds : Conditions} (h : cs.find? type = ds.find? type) :
    cs.transitionTime type status now = ds.transitionTime type status now := by
  rw [transitionTime, transitionTime, h]

theorem isTrue_iff : cs.isTrue type = true ↔
    ∃ c, cs.find? type = some c ∧ c.status = Condition.holds := by
  rw [isTrue]
  cases cs.find? type with
  | none => simp
  | some c => simp

/-! ## 3. Types -/

/-- A new type comes last, and the types that were there stay. -/
theorem types_put (cs : Conditions) (c : Condition) :
    (cs.put c).map (·.type) =
      if (cs.find? c.type).isSome then cs.map (·.type) else cs.map (·.type) ++ [c.type] := by
  rw [put]
  split
  · rw [List.map_map]
    refine List.map_congr_left fun d _ => ?_
    by_cases hd : d.type = c.type
    · rw [Function.comp_apply, if_pos hd, hd]
    · rw [Function.comp_apply, if_neg hd]
  · rw [List.map_append]
    rfl

/-- A type that was there at most once still is. -/
theorem nodup_types_put (h : (cs.map (·.type)).Nodup) (c : Condition) :
    ((cs.put c).map (·.type)).Nodup := by
  rw [types_put]
  split
  · exact h
  · rename_i hc
    refine h.append (List.nodup_singleton _) (List.disjoint_singleton.mpr fun hmem => hc ?_)
    obtain ⟨d, hd, htype⟩ := List.mem_map.mp hmem
    exact List.find?_isSome.mpr ⟨d, hd, beq_iff_eq.mpr htype⟩

/-- What is found under a type is of this type. -/
theorem type_of_find? (h : cs.find? type = some c) : c.type = type := by
  have htype := List.find?_some h
  exact beq_iff_eq.mp htype

/-- Where each type occurs at most once, each condition is found under its type. -/
theorem find?_of_mem (h : (cs.map (·.type)).Nodup) (hc : c ∈ cs) : cs.find? c.type = some c := by
  have hsome : (cs.find? c.type).isSome := List.find?_isSome.mpr ⟨c, hc, beq_self_eq_true _⟩
  obtain ⟨d, hd⟩ := Option.isSome_iff_exists.mp hsome
  rw [hd, List.inj_on_of_nodup_map h (List.mem_of_find?_eq_some hd) hc (type_of_find? hd)]

end Steward.Conditions
