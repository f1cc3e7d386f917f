import Steward.Managed

/-!
# Reading resources

A resource that was read keeps itself, and its working status is the one that is stored.
-/

namespace Steward.Managed

variable [Validator] {r : Resource} {m : Managed}

theorem ofResource_eq_ok (h : ofResource r = .ok m) :
    m.resource = r ∧ Status.ofMembers r.status = .ok m.status := by
  rw [ofResource] at h
  split at h
  · cases h
  · rename_i kind _
    cases hdeclared : Declared.read kind r.spec with
    | error e =>
      rw [hdeclared] at h
      cases h
    | ok declared =>
      cases hstatus : Status.ofMembers r.status with
      | error e =>
        rw [hdeclared, hstatus] at h
        cases h
      | ok status =>
        rw [hdeclared, hstatus] at h
        cases h
        exact ⟨rfl, rfl⟩

theorem declared_of_ofResource {kind : Kind} (hkind : Kind.ofName? r.kind = some kind)
    (h : ofResource r = .ok m) : Declared.read kind r.spec = .ok m.declared := by
  rw [ofResource, hkind] at h
  dsimp only at h
  cases hdeclared : Declared.read kind r.spec with
  | error e =>
    rw [hdeclared] at h
    cases h
  | ok declared =>
    cases hstatus : Status.ofMembers r.status with
    | error e =>
      rw [hdeclared, hstatus] at h
      cases h
    | ok status =>
      rw [hdeclared, hstatus] at h
      cases h
      rfl

/-- The type of service is that of the kind. -/
theorem service_of_ofResource {k : ManagerKind} (hkind : r.kind = k.resourceKind)
    (h : ofResource r = .ok m) : m.service = k.service := by
  have hname : Kind.ofName? r.kind = some (.manager k) := hkind ▸ Kind.ofName?_name (.manager k)
  have hread := declared_of_ofResource hname h
  rw [Declared.read] at hread
  cases hspec : Spec.Manager.block.read r.spec with
  | valid spec =>
    rw [hspec] at hread
    rw [service, ← Except.ok.inj hread]
    rfl
  | _ =>
    rw [hspec] at hread
    cases hread

theorem resource_of_ofResource (h : ofResource r = .ok m) : m.resource = r := (ofResource_eq_ok h).1

theorem status_of_ofResource (h : ofResource r = .ok m) : Status.ofMembers r.status = .ok m.status :=
  (ofResource_eq_ok h).2

end Steward.Managed
