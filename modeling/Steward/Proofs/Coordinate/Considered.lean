import Steward.Proofs.Coordinate.Decide
import Steward.Proofs.Reconcile.Guards
import Steward.Proofs.Status.RoundTrip

/-!
# How a coordination pass acts

Whatever is replied, a coordination pass leaves finalizers alone, and writes only records whose
times can be read back.  What it sends to the aggregator follows from the list of applications that
was replied immediately before (`Considered`).
-/

namespace Steward

open Pass

/-- The base URL of every client for the service of a resource. -/
def AggregatorClient.baseOf (m : Managed) : String :=
  (new m.connection.url "" 0 m.connection.insecureSkipVerify).baseUrl

theorem AggregatorClient.baseUrl_of_forManaged {m : Managed} {timeout : Int} {cache after : Cache}
    {xs : List Exchange} {c : AggregatorClient}
    (h : Follows (forManaged m timeout) cache xs (.ok c) after) : c.baseUrl = baseOf m := by
  rcases follows_bind.mp h with ⟨ys, zs, secrets, mid, rfl, -, hrest⟩ | ⟨e, he, -⟩
  · dsimp only at hrest
    split at hrest
    · rcases follows_bind.mp hrest with ⟨_, _, _, _, -, hthrow, -⟩ | ⟨e, he, -⟩
      · cases (follows_throw.mp hthrow).2.1
      · cases he
    · cases (follows_pure.mp hrest).2.1
      rfl
  · cases he

namespace Coordinate

variable {ctx : Context} {aggregator m : Managed} {client : AggregatorClient} {base : String}
  {told : List Exchange}

/-- The request lists the applications, or sends a registration in the light of the list that was
replied immediately before. -/
def Prepared (base : String) (told : List Exchange) (q : HttpRequest) : Prop :=
  q.method = "GET" ∧ q.payload = none ∨
  ∃ (c : AggregatorClient) (registration : Registration) (existing : Option Json)
    (earlier : List Exchange) (reply : Except Failure HttpResponse),
    c.baseUrl = base ∧ told = earlier ++ [⟨.http (c.request "GET" "" none), reply⟩] ∧
    c.foundIn registration.name reply = .ok existing ∧ c.writing registration existing = .ok q

/-- What a coordination pass asks that was told this before. -/
structure Considered (ctx : Context) (base : String) (told : List Exchange) (request : Request) :
    Prop where
  finalizers : request.SparesFinalizers
  /-- The status that was read is written with another record. -/
  records : ∀ q document, request = .updateStatus q document → WasRead told q ∧
    ∃ m record, Managed.ofResource q = .ok m ∧ (ctx.now.Valid → record.Dated) ∧
      document = withRecord m record
  calls : ∀ q, request = .http q → Prepared base told q

theorem considered_of_sparesStore {request : Request} (h : request.SparesStore)
    (haggregator : request.SparesAggregator) : Considered ctx base told request where
  finalizers := h.sparesFinalizers
  records q document hq := absurd hq (h.sparesStatus q document)
  calls _ hq := absurd (hq ▸ rfl) haggregator

theorem considered_of_readsSecret {request : Request} (h : request.ReadsSecret) :
    Considered ctx base told request := by
  refine considered_of_sparesStore h.sparesStore ?_
  rw [Request.SparesAggregator, h.addressee]
  exact Addressee.noConfusion

theorem considered_of_prepared {q : HttpRequest} (h : Prepared base told q) :
    Considered ctx base told (.http q) where
  finalizers := Request.SparesStore.sparesFinalizers rfl
  records _ _ h := nomatch h
  calls q' hq := by
    cases hq
    exact h

/-- A registration is sent in the light of the list that its client was replied. -/
theorem considered_register (hbase : client.baseUrl = base) (registration : Registration) :
    AsksKnowing (Considered ctx base) told (client.register registration) := by
  intro cache after xs out h before x later hxs
  have hlist (told : List Exchange) (reply : Except Failure HttpResponse) :
      Considered ctx base told
        (⟨.http (client.request "GET" "" none), reply⟩ : Exchange).request :=
    considered_of_prepared (.inl ⟨rfl, rfl⟩)
  -- where only the list is asked for
  have honly {reply : Except Failure HttpResponse}
      (hsplit : [⟨.http (client.request "GET" "" none), reply⟩] = before ++ x :: later) :
      Considered ctx base (told ++ before) x.request := by
    cases before with
    | nil =>
      obtain ⟨rfl, -⟩ := List.cons.inj hsplit
      exact hlist _ reply
    | cons y before => cases (List.append_eq_nil_iff.mp (List.cons.inj hsplit).2.symm).2
  cases (AggregatorClient.follows_register h).1 with
  | unread _ => exact honly hxs
  | unsent _ _ => exact honly hxs
  | sent hfound hwriting =>
    cases before with
    | nil =>
      obtain ⟨rfl, -⟩ := List.cons.inj hxs
      exact hlist _ _
    | cons y before =>
      obtain ⟨rfl, hlast⟩ := List.cons.inj hxs
      cases before with
      | nil =>
        obtain ⟨rfl, -⟩ := List.cons.inj hlast
        exact considered_of_prepared (.inr ⟨client, registration, _, told, _, hbase, rfl, hfound,
          hwriting⟩)
      | cons z before => cases (List.append_eq_nil_iff.mp (List.cons.inj hlast).2.symm).2

/-- What is put on record was read off the clock of the pass. -/
theorem dated_of_decided {cache after : Cache} {asked : List Exchange} {record : RegistrationRecord}
    {error : Option String}
    (h : Follows (decideOrFail ctx aggregator m client) cache asked (.ok (some (record, error)))
      after) (hnow : ctx.now.Valid) : record.Dated := by
  have hundated (record : RegistrationRecord) (h : record.lastSync = none) : record.Dated := by
    intro t ht
    rw [h] at ht
    cases ht
  obtain ⟨decision, hdecision, hdecides⟩ := decides_of_follows h
  cases hdecision
  cases href : m.declared.aggregatorRef with
  | none =>
    have hdecision := (hdecides.unreferenced href).2
    split at hdecision
    · cases hdecision
      exact hundated _ rfl
    · cases hdecision
  | some ref =>
    by_cases hname : ref.name = aggregator.name
    · obtain ⟨record', error', hdecided, hattempt⟩ := attempt_of_follows href hname h
      cases hdecided
      cases hattempt with
      | registered _ _ _ _ _ =>
        intro t ht
        cases ht
        exact hnow
      | _ => exact hundated _ rfl
    · cases (hdecides.elsewhere ref href hname).2

theorem considered_writeRecord {record : RegistrationRecord}
    (hm : Managed.ofResource m.resource = .ok m) (hread : WasRead told m.resource)
    (hdated : ctx.now.Valid → record.Dated) :
    AsksKnowing (Considered ctx base) told (writeRecord m record) := by
  intro cache after xs out h before x later hxs
  obtain ⟨hfinalizers, haggregator⟩ :
      x.request.SparesFinalizers ∧ x.request.SparesAggregator := by
    have hx : x ∈ xs := hxs ▸ List.mem_append_right _ List.mem_cons_self
    rcases requests_of_records (follows_writeRecord h).2.1 x hx with
      ⟨q, document, hq⟩ | ⟨kind, ns, name, hq⟩
    · rw [hq]
      exact ⟨Request.sparesFinalizers_updateStatus q document, Addressee.noConfusion⟩
    · rw [hq]
      exact ⟨Request.SparesStore.sparesFinalizers rfl, Addressee.noConfusion⟩
  refine ⟨hfinalizers, fun q document hq => ?_, fun q hq => absurd (hq ▸ rfl) haggregator⟩
  obtain ⟨hwas, m', hm', hdocument⟩ :=
    knowing_writeRecord hm hread record _ _ _ _ h before x later hxs q document hq
  exact ⟨hwas, m', record, hm', hdated, hdocument⟩

/-- **How a coordination pass acts.** -/
theorem considered_coordinate {r : Resource} (haggregator : Managed.ofResource r = .ok aggregator) :
    AsksKnowing (Considered ctx (AggregatorClient.baseOf aggregator)) told (coordinate ctx r) := by
  refine knowing_coordinate (fun _ _ h => considered_of_readsSecret h)
    fun aggregator' cache reads client after hread hclient => ?_
  rw [haggregator, Except.ok.injEq] at hread
  subst hread
  exact
    { lists := fun _ _ => considered_of_sparesStore rfl Addressee.noConfusion
      decides := fun _ _ _ _ => knowing_decideOrFail (fun _ _ h => considered_of_readsSecret h)
        (fun _ _ => considered_of_sparesStore rfl Addressee.noConfusion) fun _ registration =>
          considered_register (AggregatorClient.baseUrl_of_forManaged hclient) registration
      writes := fun _ _ _ _ _ _ _ hm hread hdecide =>
        considered_writeRecord hm hread (dated_of_decided hdecide) }

end Coordinate

end Steward
