import Steward.Proofs.Status.RoundTrip

/-!
# Every status that is read can be read again

Whatever a status was read from, its points in time can be named (`Status.dated_of_ofMembers`).  So
it is read back from what is stored of it, also where a part of it was replaced by another one whose
time can be named.  A codec need not restore all that it reads for this: it is enough to say what is
true of each value (`Codec.Yields`), and nothing has to be said of parts without times.
-/

namespace Steward

variable {σ α β : Type}

/-! ## 1. What is read -/

/-- Whatever the codec reads is good. -/
class Codec.Yields (c : Codec α) (Good : outParam (α → Prop)) : Prop where
  good_of_read : ∀ {v : Json} {a : α}, c.read v = .valid a → Good a

/-- What is said of `Every` value that the block may read is true of each value that it reads. -/
class Block.Yields (b : Block σ α) (Every : outParam ((α → Prop) → Prop)) : Prop where
  of_read : ∀ {ms : Json.Members} {a : α} {P : α → Prop}, b.read ms = .valid a → Every P → P a

namespace Codec

instance (priority := low) (c : Codec α) : c.Yields fun _ => True := ⟨fun _ => trivial⟩

instance [Validator] [laws : Validator.Lawful] : timestamp.Yields Timestamp.Valid :=
  ⟨laws.timestamp_valid⟩

instance {c : Codec α} {Good : α → Prop} [hc : c.Yields Good] :
    c.list.Yields fun items => ∀ a ∈ items, Good a where
  good_of_read {v items} h a ha := by
    cases v with
    | array vs =>
      obtain ⟨w, -, hread⟩ := (mem_of_readItems h).1 a ha
      exact hc.good_of_read hread
    | _ => cases h

end Codec

namespace Block

instance (priority := low) (b : Block σ α) : b.Yields fun P => ∀ a, P a :=
  ⟨fun _ hevery => hevery _⟩

section Members

variable {c : Codec α} {Good : α → Prop} [hc : c.Yields Good] {camel snake : String}

instance (default : α) (get : σ → α) :
    (defaulted camel snake c default get).Yields fun P => ∀ a, Good a ∨ a = default → P a where
  of_read {ms a P} h hevery := by
    refine hevery a ?_
    dsimp only [defaulted] at h
    split at h
    · exact .inl (hc.good_of_read (Checked.below_eq_valid h))
    · exact .inr (Checked.valid.inj h).symm

instance (get : σ → Option α) :
    (optional camel snake c get).Yields
      fun P => ∀ o : Option α, (∀ a ∈ o, Good a) → P o where
  of_read {ms o P} h hevery := by
    refine hevery o fun a ha => ?_
    cases ha
    dsimp only [optional, optionalBy] at h
    split at h
    · rename_i v _
      have hread := Checked.below_eq_valid h
      cases v with
      | null => cases hread
      | _ =>
        obtain ⟨b, hb, hsome⟩ := Checked.map_eq_valid hread
        cases hsome
        exact hc.good_of_read hb
    · cases h

end Members

instance {b : Block σ α} {Every : (α → Prop) → Prop} [hb : b.Yields Every] (f : α → β) :
    (f <$> b).Yields fun P => Every fun a => P (f a) where
  of_read h hevery := by
    obtain ⟨a, ha, rfl⟩ := Checked.map_eq_valid h
    exact hb.of_read ha hevery

instance {f : Block σ (α → β)} {x : Block σ α} {Everyf : ((α → β) → Prop) → Prop}
    {Everyx : (α → Prop) → Prop} [hf : f.Yields Everyf] [hx : x.Yields Everyx] :
    (f <*> x).Yields fun P => Everyf fun g => Everyx fun a => P (g a) where
  of_read h hevery := by
    obtain ⟨g, a, hg, ha, rfl⟩ := Checked.ap_eq_valid h
    exact hx.of_read ha (hf.of_read hg hevery)

/-- A block of a structure yields what is said of every structure that it may read. -/
theorem Yields.codec {b : Block α α} {Every : (α → Prop) → Prop} (hb : b.Yields Every)
    {Good : α → Prop} (hevery : Every Good) (name : String) : (b.codec name).Yields Good where
  good_of_read {v a} h := by
    cases v with
    | object ms => exact hb.of_read h hevery
    | _ => cases h

end Block

/-! ## 2. Statuses -/

variable [Validator] [Validator.Lawful]

instance : Condition.codec.Yields Condition.Dated := by
  unfold Condition.codec Condition.block
  exact Block.Yields.codec inferInstance (by simp [Condition.Dated]) _

instance : HealthSummary.codec.Yields HealthSummary.Dated := by
  unfold HealthSummary.codec HealthSummary.block
  exact Block.Yields.codec inferInstance (by simp +contextual [HealthSummary.Dated]) _

instance : RegistrationRecord.codec.Yields RegistrationRecord.Dated := by
  unfold RegistrationRecord.codec RegistrationRecord.block
  exact Block.Yields.codec inferInstance (by simp +contextual [RegistrationRecord.Dated]) _

namespace Status

instance : codec.Yields Dated := by
  unfold codec block
  refine Block.Yields.codec inferInstance ?_ _
  rintro conditions hconditions _ - _ - reconcile hreconcile _ - _ - health hhealth
    registration hregistration _ -
  refine ⟨fun c hc => ?_, hreconcile, hhealth, hregistration⟩
  rcases hconditions with hconditions | rfl
  · exact hconditions c hc
  · cases hc

/-- **Every status that is read can be read again.** -/
theorem dated_of_ofMembers {ms : Json.Members} {s : Status} (h : ofMembers ms = .ok s) :
    s.Dated := by
  have hread : codec.read (.object ms) = .valid s := Checked.toExcept_eq_ok h
  exact Codec.Yields.good_of_read hread

/-- The status that was read is read back with another record. -/
theorem ofMembers_withRecord {ms : Json.Members} {s : Status} (h : ofMembers ms = .ok s)
    {record : RegistrationRecord} (hrecord : record.Dated) :
    ofMembers ({ s with registration := some record }).toMembers =
      .ok { s with registration := some record } := by
  have hs := dated_of_ofMembers h
  refine ofMembers_toMembers ⟨hs.conditions, hs.lastReconcile, hs.health, fun r hr => ?_⟩
  cases hr
  exact hrecord

end Status

end Steward
