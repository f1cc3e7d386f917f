import Mathlib.Data.List.TakeWhile
import Steward.Aggregator.Registration
import Steward.Proofs.Managed

/-!
# Registrations

The name of a registration joins the name of a resource and its type of service by a hyphen.  The
name of a resource may hold hyphens of its own, but no type of service does, so the last hyphen
tells where the type begins: different resources of one namespace never share a registration.  The
document that is sent for a registration carries its name.
-/

namespace Steward.Registration

/-- No type of service holds a hyphen. -/
theorem hyphen_notMem_service (k : ManagerKind) : '-' ∉ k.service.toList := by
  cases k <;> decide

/-- What follows the last hyphen. -/
theorem takeWhile_hyphen {service : String} (h : '-' ∉ service.toList) (name : List Char) :
    ((name ++ '-' :: service.toList).reverse.takeWhile (· != '-')).reverse = service.toList := by
  have hall : ∀ c ∈ service.toList.reverse, (c != '-') = true := by
    intro c hc
    rw [List.mem_reverse] at hc
    rw [bne_iff_ne]
    rintro rfl
    exact h hc
  have hsplit : (name ++ '-' :: service.toList).reverse =
      service.toList.reverse ++ '-' :: name.reverse := by
    simp only [List.reverse_append, List.reverse_cons, List.append_assoc, List.singleton_append]
  rw [hsplit, List.takeWhile_append_of_pos hall, List.takeWhile_cons, bne_self_eq_false,
    if_neg Bool.false_ne_true, List.append_nil, List.reverse_reverse]

/-- **Pull names are told apart.**  Under one prefix, the name of a resource and its type of service
are read off the name of its registration. -/
theorem pullName_inj {pre name other : String} {k l : ManagerKind}
    (h : pullName pre name k.service = pullName pre other l.service) : name = other ∧ k = l := by
  have hlist := congrArg String.toList h
  simp only [pullName, String.toList_append, List.append_assoc, List.append_cancel_left_eq] at hlist
  have hhyphen : "-".toList = ['-'] := rfl
  rw [hhyphen, List.singleton_append, List.singleton_append] at hlist
  have hservice : k.service = l.service := by
    apply String.toList_injective
    rw [← takeWhile_hyphen (hyphen_notMem_service k) name.toList, hlist,
      takeWhile_hyphen (hyphen_notMem_service l)]
  rw [hservice, List.append_cancel_right_eq] at hlist
  exact ⟨String.toList_injective hlist, by revert hservice; cases k <;> cases l <;> decide⟩

/-- The document of a registration carries its name. -/
theorem get?_name_of_payload {r : Registration} {id : Option Json} {payload : Json}
    (h : r.payload id = .ok payload) : payload.get? "name" = some (.string r.name) := by
  rw [Registration.payload] at h
  split at h
  · cases h
  · rename_i implementation _
    cases h
    cases id with
    | none => rfl
    | some id => rfl

/-- With an id, the document is the one without, and the id. -/
theorem payload_some {r : Registration} {members : Json.Members}
    (h : r.payload none = .ok (.object members)) (id : Json) :
    r.payload (some id) = .ok (.object (Table.set members "id" id)) := by
  rw [Registration.payload] at h ⊢
  split at h
  · cases h
  · cases h
    rfl

/-- The document for an id has the id. -/
theorem set_id_of_payload {r : Registration} {id : Json} {members : Json.Members}
    (h : r.payload (some id) = .ok (.object members)) : Table.set members "id" id = members := by
  rw [Registration.payload] at h
  split at h
  · cases h
  · cases h
    rfl

end Steward.Registration
