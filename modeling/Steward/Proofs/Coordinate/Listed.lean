import Steward.Coordinate
import Steward.Proofs.Managed

/-!
# The services that an aggregator lists itself

An aggregator may declare a service as one of its applications.  The type of an application is kept
in lower case, so a service is found there however its type is written in the document
(`isPushed_iff`).
-/

namespace Steward

variable {α β σ : Type}

/-! ## 1. What was read -/

theorem Checked.map_eq_valid {f : α → β} {x : Checked α} {b : β} (h : x.map f = .valid b) :
    ∃ a, x = .valid a ∧ b = f a := by
  cases x with
  | valid a => exact ⟨a, rfl, (Checked.valid.inj h).symm⟩
  | _ => cases h

theorem Checked.below_eq_valid {s : Step} {x : Checked α} {a : α} (h : x.below s = .valid a) :
    x = .valid a := by
  cases x with
  | valid b => exact h
  | _ => cases h

theorem Checked.toExcept_eq_ok {block : String} {x : Checked α} {a : α}
    (h : x.toExcept block = .ok a) : x = .valid a := by
  cases x with
  | valid b =>
    rw [toExcept, Except.ok.injEq] at h
    rw [h]
  | _ => cases h

/-- What was read of a list is what was read of its items. -/
theorem Codec.mem_of_readItems {read : Json → Checked α} {vs : List Json} {as : List α}
    {index : Nat} (h : readItems read index vs = .valid as) :
    (∀ a ∈ as, ∃ v ∈ vs, read v = .valid a) ∧ ∀ v ∈ vs, ∃ a ∈ as, read v = .valid a := by
  induction vs generalizing index as with
  | nil =>
    cases h
    exact ⟨fun a ha => (nomatch ha), fun v hv => nomatch hv⟩
  | cons v vs ih =>
    obtain ⟨g, rest, hg, hrest, rfl⟩ := Checked.ap_eq_valid h
    obtain ⟨a, ha, rfl⟩ := Checked.map_eq_valid hg
    have hread := Checked.below_eq_valid ha
    obtain ⟨hvalues, hitems⟩ := ih hrest
    constructor
    · intro b hb
      rcases List.mem_cons.mp hb with rfl | hb
      · exact ⟨v, List.mem_cons_self, hread⟩
      · obtain ⟨u, hu, hb⟩ := hvalues b hb
        exact ⟨u, List.mem_cons_of_mem _ hu, hb⟩
    · intro u hu
      rcases List.mem_cons.mp hu with rfl | hu
      · exact ⟨a, List.mem_cons_self, hread⟩
      · obtain ⟨b, hb, hu⟩ := hitems u hu
        exact ⟨b, List.mem_cons_of_mem _ hb, hu⟩

theorem Codec.text_eq_valid {v : Json} {s : String} (h : text.read v = .valid s) : v = .string s := by
  cases v with
  | string t =>
    cases h
    rfl
  | _ => cases h

namespace Block

/-- A member of one name is looked up under it. -/
theorem find?_same (ms : Json.Members) (name : String) :
    find? ms name name = (Table.get? ms name).map fun v => (name, v) := by
  unfold find?
  cases Table.get? ms name with
  | none => rfl
  | some v => rfl

theorem required_eq_valid {name : String} {c : Codec α} {get : σ → α} {ms : Json.Members}
    {a : α} (h : (required name name c get).read ms = .valid a) :
    ∃ v, Table.get? ms name = some v ∧ c.read v = .valid a := by
  simp only [required, find?_same] at h
  cases hv : Table.get? ms name with
  | none =>
    rw [hv] at h
    cases h
  | some v =>
    rw [hv] at h
    exact ⟨v, rfl, Checked.below_eq_valid h⟩

theorem defaulted_eq_valid {name : String} {c : Codec α} {default : α} {get : σ → α}
    {ms : Json.Members} {a : α} (h : (defaulted name name c default get).read ms = .valid a) :
    (Table.get? ms name = none ∧ a = default) ∨
      ∃ v, Table.get? ms name = some v ∧ c.read v = .valid a := by
  simp only [defaulted, find?_same] at h
  cases hv : Table.get? ms name with
  | none =>
    rw [hv] at h
    exact Or.inl ⟨rfl, (Checked.valid.inj h).symm⟩
  | some v =>
    rw [hv] at h
    exact Or.inr ⟨v, rfl, Checked.below_eq_valid h⟩

end Block

/-! ## 2. Applications -/

namespace Spec

/-- The name of an application is kept as it is written, its type in lower case. -/
theorem Application.of_read {ms : Json.Members} {application : Application}
    (h : Application.block.read ms = .valid application) :
    Table.get? ms "name" = some (.string application.name) ∧
      ∃ type, Table.get? ms "type" = some (.string type) ∧ application.type = Text.lower type := by
  obtain ⟨g₆, level, h₆, -, rfl⟩ := Checked.ap_eq_valid h
  obtain ⟨g₅, categories, h₅, -, rfl⟩ := Checked.ap_eq_valid h₆
  obtain ⟨g₄, key, h₄, -, rfl⟩ := Checked.ap_eq_valid h₅
  obtain ⟨g₃, url, h₃, -, rfl⟩ := Checked.ap_eq_valid h₄
  obtain ⟨g₂, type, h₂, htype, rfl⟩ := Checked.ap_eq_valid h₃
  obtain ⟨name, hname, rfl⟩ := Checked.map_eq_valid h₂
  obtain ⟨v, hv, hread⟩ := Block.required_eq_valid hname
  obtain ⟨u, hu, hlower⟩ := Block.required_eq_valid htype
  obtain ⟨text, htext, rfl⟩ := Checked.map_eq_valid hlower
  rw [Codec.text_eq_valid hread] at hv
  rw [Codec.text_eq_valid htext] at hu
  exact ⟨hv, text, hu, rfl⟩

/-- The applications of an aggregator are those of its document. -/
theorem Aggregator.applications_of_read {ms : Json.Members} {aggregator : Aggregator}
    (h : Aggregator.block.read ms = .valid aggregator) :
    (Table.get? ms "applications" = none ∧ aggregator.applications = []) ∨
      ∃ items, Table.get? ms "applications" = some (.array items) ∧
        Application.codec.list.read (.array items) = .valid aggregator.applications := by
  obtain ⟨g₆, tuning, h₆, -, rfl⟩ := Checked.ap_eq_valid h
  obtain ⟨g₅, clients, h₅, -, rfl⟩ := Checked.ap_eq_valid h₆
  obtain ⟨g₄, applications, h₄, happlications, rfl⟩ := Checked.ap_eq_valid h₅
  obtain ⟨g₃, proxies, h₃, -, rfl⟩ := Checked.ap_eq_valid h₄
  obtain ⟨g₂, indexers, h₂, -, rfl⟩ := Checked.ap_eq_valid h₃
  obtain ⟨connection, -, rfl⟩ := Checked.map_eq_valid h₂
  refine (Block.defaulted_eq_valid happlications).imp_right fun ⟨v, hv, hread⟩ => ?_
  cases v with
  | array items => exact ⟨items, hv, hread⟩
  | _ => cases hread

end Spec

/-! ## 3. Listed services -/

namespace Coordinate

/-- The document of an aggregator has an application of the type of the service, in whatever case,
and of its name. -/
def Lists (spec : Json.Members) (m : Managed) : Prop :=
  ∃ items application type, Table.get? spec "applications" = some (.array items) ∧
    .object application ∈ items ∧ Table.get? application "type" = some (.string type) ∧
    Text.lower type = m.service ∧ Table.get? application "name" = some (.string m.name)

theorem isPushed_iff_mem {a m : Managed} : isPushed a m = true ↔
    ∃ application ∈ a.declared.applications, application.type = m.service ∧
      application.name = m.name := by
  simp only [isPushed, List.any_eq_true, Bool.and_eq_true, beq_iff_eq]

theorem applications_of_ofResource {r : Resource} {a : Managed}
    (hkind : r.kind = Kind.aggregatorName) (ha : Managed.ofResource r = .ok a) :
    ∃ spec, Spec.Aggregator.block.read r.spec = .valid spec ∧
      a.declared.applications = spec.applications := by
  have hname : Kind.ofName? r.kind = some .aggregator := by
    rw [hkind]
    exact Kind.ofName?_name .aggregator
  have hread := Checked.toExcept_eq_ok (Managed.declared_of_ofResource hname ha)
  obtain ⟨spec, hspec, hdeclared⟩ := Checked.map_eq_valid hread
  exact ⟨spec, hspec, by rw [hdeclared]; rfl⟩

/-- A service is found among the applications of an aggregator if its document lists it. -/
theorem isPushed_iff {r : Resource} {a : Managed} (hkind : r.kind = Kind.aggregatorName)
    (ha : Managed.ofResource r = .ok a) (m : Managed) : isPushed a m = true ↔ Lists r.spec m := by
  obtain ⟨spec, hspec, happlications⟩ := applications_of_ofResource hkind ha
  rw [isPushed_iff_mem, happlications]
  rcases Spec.Aggregator.applications_of_read hspec with ⟨hnone, hempty⟩ | ⟨items, hitems, hread⟩
  · rw [hempty]
    refine iff_of_false (fun ⟨_, hmem, _⟩ => nomatch hmem) ?_
    rintro ⟨items, application, type, hitems, -⟩
    rw [hnone] at hitems
    cases hitems
  obtain ⟨hvalues, hall⟩ := Codec.mem_of_readItems hread
  constructor
  · rintro ⟨application, hmem, htype, hname⟩
    obtain ⟨v, hv, hvalue⟩ := hvalues application hmem
    cases v with
    | object ms =>
      obtain ⟨hname', type, hget, htype'⟩ := Spec.Application.of_read hvalue
      rw [hname] at hname'
      exact ⟨items, ms, type, hitems, hv, hget, htype'.symm.trans htype, hname'⟩
    | _ => cases hvalue
  · rintro ⟨items', application, type, hitems', hmem, hget, hlower, hname⟩
    rw [hitems, Option.some.injEq, Json.array.injEq] at hitems'
    obtain ⟨read, hread', hvalue⟩ := hall _ (hitems' ▸ hmem)
    obtain ⟨hname', type', hget', htype'⟩ := Spec.Application.of_read hvalue
    rw [hget, Option.some.injEq, Json.string.injEq] at hget'
    rw [hname, Option.some.injEq, Json.string.injEq] at hname'
    exact ⟨read, hread', by rw [htype', ← hget', hlower], hname'.symm⟩

end Coordinate

end Steward
