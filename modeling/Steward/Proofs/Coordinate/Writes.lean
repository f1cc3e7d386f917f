import Steward.Proofs.Aggregator.Client
import Steward.Proofs.Coordinate.Record
import Steward.Proofs.Managed
import Steward.Proofs.Pass.Told

/-!
# What a coordination pass asks

A coordination pass reads the secrets for a client, lists the resources of each kind, decides about
each of them and writes what is to be recorded: what all of this asks, the whole pass asks
(`knowing_coordinate`).

Deciding about a service leaves the store alone.  The only writes of a coordination pass are those
of registration records, each into the status of a resource as it was read: listed with others of
its kind, or fetched once more after a lost race.
-/

namespace Steward.Coordinate

open Pass

variable {ctx : Context} {aggregator m : Managed} {client : AggregatorClient}
  {told : List Exchange}

/-! ## 1. Decisions -/

section

variable {P : List Exchange → Request → Prop}

theorem knowing_registerService {apiKey : String} (hrecord : ∀ told e, P told (.record e))
    (hregister : ∀ told registration, AsksKnowing P told (client.register registration)) :
    AsksKnowing P told (registerService ctx aggregator m client apiKey) := by
  refine (hregister _ _).attempt_bind fun _ _ registered _ _ => ?_
  split
  · exact (knowing_ask (hrecord _ _)).bind fun _ _ _ _ _ => knowing_pure _
  · exact knowing_ite ((knowing_ask (hrecord _ _)).bind fun _ _ _ _ _ => knowing_pure _)
      (knowing_pure _)

theorem knowing_decide (hreads : ∀ told r, Request.ReadsSecret r → P told r)
    (hrecord : ∀ told e, P told (.record e))
    (hregister : ∀ told registration, AsksKnowing P told (client.register registration)) :
    AsksKnowing P told (decide ctx aggregator m client) := by
  rw [decide]
  split
  · split
    · exact knowing_ite (knowing_pure _) (knowing_pure _)
    · exact knowing_pure _
  · refine knowing_ite (knowing_pure _) (knowing_ite
      ((knowing_ask (hrecord _ _)).bind fun _ _ _ _ _ => knowing_pure _)
      (knowing_ite (knowing_pure _)
        (((Secret.asks_registrationKey m).knowing hreads).attempt_bind fun _ _ key _ _ => ?_)))
    split
    · exact knowing_pure _
    · exact knowing_throw _
    · exact (knowing_registerService hrecord hregister).bind fun _ _ _ _ _ => knowing_pure _

/-- To decide about a service, secrets are read, events are recorded, and the aggregator is asked to
register it. -/
theorem knowing_decideOrFail (hreads : ∀ told r, Request.ReadsSecret r → P told r)
    (hrecord : ∀ told e, P told (.record e))
    (hregister : ∀ told registration, AsksKnowing P told (client.register registration)) :
    AsksKnowing P told (decideOrFail ctx aggregator m client) := by
  refine (knowing_decide hreads hrecord hregister).attempt_bind fun _ _ decision _ _ => ?_
  split
  · exact knowing_pure _
  · exact knowing_pure _

end

theorem asks_decideOrFail (ctx : Context) (aggregator m : Managed) (client : AggregatorClient) :
    Asks Request.SparesStore (decideOrFail ctx aggregator m client) := by
  have hregister (registration : Registration) :
      Asks Request.SparesStore (client.register registration) :=
    (AggregatorClient.asks_register client registration).mono fun _ h =>
      Request.sparesStore_of_addressee (by rw [h]; exact Addressee.noConfusion)
  exact (knowing_decideOrFail (fun _ _ h => h.sparesStore) (fun _ _ => rfl)
    fun _ registration => (hregister registration).knowing fun _ _ h => h).asks

/-! ## 2. Whole passes -/

/-- What a coordination pass over the aggregator asks for each service, in the light of what was
replied before, is of this kind. -/
structure Routine (P : List Exchange → Request → Prop) (ctx : Context) (aggregator : Managed)
    (client : AggregatorClient) : Prop where
  lists : ∀ told (k : ManagerKind), P told (.listResources k.resourceKind aggregator.ns)
  decides : ∀ told m, Managed.ofResource m.resource = .ok m → WasRead told m.resource →
    AsksKnowing P told (decideOrFail ctx aggregator m client)
  writes : ∀ told m record error cache asked after, Managed.ofResource m.resource = .ok m →
    WasRead told m.resource →
    Follows (decideOrFail ctx aggregator m client) cache asked (.ok (some (record, error))) after →
    AsksKnowing P told (writeRecord m record)

section

variable {P : List Exchange → Request → Prop}

theorem knowing_service (h : Routine P ctx aggregator client) {r : Resource}
    (hread : WasRead told r) (result : Coordination) :
    AsksKnowing P told (service ctx aggregator client result r) := by
  rw [service]
  split
  · exact knowing_pure _
  split
  · exact knowing_throw _
  · exact knowing_pure _
  rename_i m hm
  have hresource := Managed.resource_of_ofResource hm
  rw [← hresource] at hread hm
  refine (h.decides _ m hm hread).bind fun cache asked decision mid hdecide => ?_
  split
  · exact knowing_pure _
  · refine (h.writes _ m _ _ cache asked mid hm (hread.append asked) hdecide).attempt_bind
      fun _ _ written _ _ => ?_
    split
    · exact knowing_pure _
    · exact knowing_pure _

theorem knowing_services (h : Routine P ctx aggregator client) {rs : List Resource}
    (hread : ∀ r ∈ rs, WasRead told r) (result : Coordination) :
    AsksKnowing P told (services ctx aggregator client result rs) := by
  induction rs generalizing told result with
  | nil => exact knowing_pure _
  | cons r rs ih =>
    rw [services]
    refine (knowing_service h (hread r List.mem_cons_self) result).bind fun _ asked _ _ _ => ?_
    exact ih (fun q hq => (hread q (List.mem_cons_of_mem _ hq)).append asked) _

theorem knowing_kinds (h : Routine P ctx aggregator client) (ks : List ManagerKind)
    (result : Coordination) : AsksKnowing P told (kinds ctx aggregator client result ks) := by
  induction ks generalizing told result with
  | nil => exact knowing_pure _
  | cons k ks ih =>
    rw [kinds]
    have hlist : Asks (fun r => ∀ told, P told r) (listResources k.resourceKind aggregator.ns) :=
      asks_ask_settle fun told => h.lists told k
    refine (hlist.knowing fun told _ hr => hr told).attempt_bind
      fun _ listing listed _ hlisting => ?_
    cases listed with
    | error e => exact ih _
    | ok rs =>
      obtain ⟨reply, rfl, hreply, -⟩ := follows_ask_settle.mp hlisting
      subst hreply
      have hread : ∀ r ∈ rs, WasRead
          (told ++ [⟨.listResources k.resourceKind aggregator.ns, .ok rs⟩]) r :=
        fun r hr => ⟨_, List.mem_append_right _ (List.mem_singleton_self _), hr⟩
      exact (knowing_services h hread result).bind fun _ _ _ _ _ => ih _

/-- **What a coordination pass asks.**  Whatever is replied, it is of a kind that the secrets for a
client are of, and all that is asked for each service with a client. -/
theorem knowing_coordinate {r : Resource} (hreads : ∀ told r, Request.ReadsSecret r → P told r)
    (h : ∀ aggregator cache reads client after,
      Managed.ofResource r = .ok aggregator →
      Follows (AggregatorClient.forManaged aggregator ctx.settings.httpTimeout) cache reads
        (.ok client) after →
      Routine P ctx aggregator client) :
    AsksKnowing P told (coordinate ctx r) := by
  rw [coordinate]
  split
  · exact knowing_pure _
  split
  · exact knowing_throw _
  · exact knowing_pure _
  rename_i aggregator haggregator
  split
  · exact knowing_pure _
  refine ((AggregatorClient.asks_forManaged aggregator _).knowing hreads).attempt_bind
    fun cache reads client after hclient => ?_
  split
  · exact knowing_pure _
  · exact (knowing_kinds (h _ _ _ _ _ haggregator hclient) _ _).bind fun _ _ _ _ _ => knowing_pure _

end

/-! ## 3. Writes -/

/-- If the request writes a status, it puts a record into the status of a resource as it was
read. -/
def WritesRecord (told : List Exchange) (request : Request) : Prop :=
  ∀ r document, request = .updateStatus r document → WasRead told r ∧
    ∃ m record, Managed.ofResource r = .ok m ∧ document = withRecord m record

theorem writesRecord_of_sparesStatus {told : List Exchange} {request : Request}
    (h : request.SparesStatus) : WritesRecord told request :=
  fun r document hrequest => absurd hrequest (h r document)

/-- If the request writes a status, it puts this record into the status of a resource as it was
read. -/
def WritesThis (record : RegistrationRecord) (told : List Exchange) (request : Request) : Prop :=
  ∀ r document, request = .updateStatus r document → WasRead told r ∧
    ∃ m, Managed.ofResource r = .ok m ∧ document = withRecord m record

theorem knowing_writeRecord (hm : Managed.ofResource m.resource = .ok m)
    (hread : WasRead told m.resource) (record : RegistrationRecord) :
    AsksKnowing (WritesThis record) told (writeRecord m record) := by
  intro cache after xs out h before x later hxs r document hx
  obtain ⟨request, reply⟩ := x
  dsimp only at hx
  subst hx
  subst hxs
  rcases follows_writeRecord_updateStatus h with
    ⟨rfl, rfl⟩ | ⟨m', ⟨kind, ns, name, hfetched⟩, hm', rfl⟩
  · exact ⟨hread.append before, m, hm, rfl⟩
  · exact ⟨⟨_, List.mem_append_right _ hfetched, List.mem_singleton_self r⟩, m', hm', rfl⟩

/-- **The writes of a coordination pass.**  Whatever is replied, each puts a record into the status
of a resource as it was read in the pass. -/
theorem writesRecord_coordinate (ctx : Context) (r : Resource) :
    AsksKnowing WritesRecord told (coordinate ctx r) :=
  knowing_coordinate (fun _ _ h => writesRecord_of_sparesStatus h.sparesStore.sparesStatus)
    fun aggregator _ _ client _ _ _ =>
      { lists := fun _ _ => writesRecord_of_sparesStatus fun _ _ => Request.noConfusion
        decides := fun _ m _ _ => (asks_decideOrFail ctx aggregator m client).knowing
          fun _ _ h => writesRecord_of_sparesStatus h.sparesStatus
        writes := fun _ _ record _ _ _ _ hm hread _ => (knowing_writeRecord hm hread record).mono
          fun _ _ h r document hrequest => by
            obtain ⟨hwas, m, hm, hdocument⟩ := h r document hrequest
            exact ⟨hwas, m, record, hm, hdocument⟩ }

end Steward.Coordinate
