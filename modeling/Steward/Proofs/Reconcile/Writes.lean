import Steward.Proofs.Aggregator.Client
import Steward.Proofs.Reconcile.Classify

/-!
# What a pass writes into the status

A pass over a resource writes its status at most once, and only in two ways: an active pass writes
the status of its behaviour, and a pass over a resource that cannot be read says so and touches
nothing else.  Every other pass leaves the status alone.
-/

namespace Steward

open Pass

namespace Reconcile

variable {ctx : Context} {m : Managed} {r : Resource} {cache after : Cache} {xs : List Exchange}

/-! ## 1. Deletion and adoption -/

/-- Unregistering looks the aggregator up, and changes nothing in the store. -/
theorem asks_unregisterFrom (ctx : Context) (m : Managed) (aggregator : String) :
    Asks Request.SparesStore (unregisterFrom ctx m aggregator) := by
  have hget : Asks Request.SparesStore (getResource Kind.aggregatorName m.ns aggregator) :=
    asks_ask_settle rfl
  have hclient (target : Managed) (timeout : Int) :
      Asks Request.SparesStore (AggregatorClient.forManaged target timeout) :=
    (AggregatorClient.asks_forManaged target timeout).mono fun _ h => h.sparesStore
  have hunregister (client : AggregatorClient) (name : String) :
      Asks Request.SparesStore (client.unregister name) :=
    (AggregatorClient.asks_unregister client name).mono fun _ h =>
      Request.sparesStore_of_addressee (by rw [h]; exact Addressee.noConfusion)
  refine hget.bind fun found => ?_
  split
  · exact asks_pure _
  refine (asks_settle _).bind fun target => (hclient target _).bind fun client =>
    (hunregister client _).bind fun removed => ?_
  exact asks_ite (asks_ask rfl) (asks_pure _)

theorem asks_unregister (ctx : Context) (m : Managed) :
    Asks Request.SparesStore (unregister ctx m) := by
  rw [unregister]
  refine asks_ite ?_ (asks_pure _)
  split
  · exact (asks_unregisterFrom ctx m _).attempt.bind fun _ => asks_pure _
  · exact asks_pure _

theorem asks_clearService (m : Managed) (conn : State.Connection) :
    Asks Request.ToService (clearService m conn) := by
  have hask (r : Request) (h : r.ToService) : Asks Request.ToService (ask r) := asks_ask h
  have hlookup : Asks Request.ToService (findAdapter m.service) := asks_ask_settle (.inl rfl)
  refine hlookup.bind fun adapter => ?_
  split
  · exact asks_pure _
  refine (hask _ (.inr rfl)).bind fun state => (asks_settle _).bind fun observed => ?_
  split
  · exact asks_pure _
  refine (hask _ (.inr rfl)).bind fun discovered => (hask _ (.inr rfl)).bind fun diffed =>
    (asks_settle _).bind fun changes => asks_ite ?_ (asks_pure _)
  exact (hask _ (.inr rfl)).bind fun applied => (asks_settle _).bind fun _ => asks_pure _

theorem asks_resolveConnection (m : Managed) :
    Asks Request.ReadsSecret (Secret.resolveConnection m.ns m.connection) :=
  Secret.asks_resolveUses _ _ _

/-- A deletion pass once the resource was unregistered. -/
def clearing (m : Managed) : Pass Reconciliation := do
  match ← Pass.attempt (Secret.resolveConnection m.ns m.connection) with
  | .error (.secret _) => pure ()
  | .error e => throw e
  | .ok secrets =>
    match ← Pass.attempt (clearService m (Compile.connection m secrets)) with
    | .ok _ => pure ()
    | .error e => Pass.record (.warning m.resource "CleanupFailed" e.message)
  let _ ← Pass.removeFinalizer m.resource m.finalizer
  Pass.record (.normal m.resource "Deleted" ("Removed " ++ m.finalizer))
  return { success := true, message := "Finalizer removed" }

theorem reconcileDeleted_of_finalizer (h : m.resource.hasFinalizer m.finalizer = true) :
    reconcileDeleted ctx m = (do unregister ctx m; clearing m) := by
  rw [reconcileDeleted, h]
  rfl

theorem reconcileDeleted_of_no_finalizer (h : m.resource.hasFinalizer m.finalizer = false) :
    reconcileDeleted ctx m = pure { success := true, message := "Awaiting removal" } := by
  rw [reconcileDeleted, h]
  rfl

/-- Once the resource was unregistered, secrets are read, its service is asked, and the finalizer is
removed. -/
theorem asks_clearing {P : Request → Prop} (hsecrets : ∀ r : Request, r.ReadsSecret → P r)
    (hservice : ∀ r : Request, r.ToService → P r)
    (hremove : P (.removeFinalizer m.resource m.finalizer)) (hrecord : ∀ e, P (.record e)) :
    Asks P (clearing m) := by
  have hend : Asks P (do
      let _ ← Pass.removeFinalizer m.resource m.finalizer
      Pass.record (.normal m.resource "Deleted" ("Removed " ++ m.finalizer))
      return { success := true, message := "Finalizer removed" } : Pass Reconciliation) :=
    (asks_ask_settle hremove).bind fun _ => (asks_ask (hrecord _)).bind fun _ => asks_pure _
  refine ((asks_resolveConnection m).mono hsecrets).attempt.bind fun resolved => ?_
  split
  · exact hend
  · exact (asks_throw _).bind fun _ => hend
  · refine ((asks_clearService m _).mono hservice).attempt.bind fun cleared => ?_
    split
    · exact hend
    · exact (asks_ask (hrecord _)).bind fun _ => hend

theorem asks_reconcileDeleted (ctx : Context) (m : Managed) :
    Asks Request.SparesStatus (reconcileDeleted ctx m) := by
  cases hfinalizer : m.resource.hasFinalizer m.finalizer with
  | false =>
    rw [reconcileDeleted_of_no_finalizer hfinalizer]
    exact asks_pure _
  | true =>
    rw [reconcileDeleted_of_finalizer hfinalizer]
    refine ((asks_unregister ctx m).mono fun _ h => h.sparesStatus).bind fun _ => ?_
    exact asks_clearing (fun _ h => h.sparesStore.sparesStatus) (fun _ h => h.sparesStore.sparesStatus)
      (fun _ _ => Request.noConfusion) fun _ _ _ => Request.noConfusion

theorem asks_adopt (m : Managed) : Asks Request.SparesStatus (adopt m) := by
  refine (asks_ask_settle fun _ _ => Request.noConfusion).bind fun _ => ?_
  exact (asks_ask fun _ _ => Request.noConfusion).bind fun _ => asks_pure _

/-! ## 2. Resources that cannot be read -/

/-- The status of a resource that cannot be read: as it was, but for the resource not being ready. -/
def invalidStatus (ctx : Context) (r : Resource) (error : ManagedError) : Status :=
  let status : Status := match Status.ofMembers r.status with
    | .ok s => s
    | .error _ => {}
  { status with
    conditions := status.conditions.set Condition.ready Condition.fails Reason.invalidSpec.name
      error.message (some r.generation) ctx.now }

theorem asks_reportInvalid {error : ManagedError} (hdeleted : r.beingDeleted = true) :
    Asks Request.SparesStatus (reportInvalid ctx r error) := by
  have hrelease : Asks Request.SparesStatus (do
      if r.hasFinalizer (finalizerFor r.kind) then
        let _ ← Pass.removeFinalizer r (finalizerFor r.kind)
      return { success := true, message := "Finalizer removed" } : Pass Reconciliation) :=
    asks_ite ((asks_ask_settle fun _ _ => Request.noConfusion).bind fun _ => asks_pure _)
      (asks_pure _)
  rw [reportInvalid, hdeleted, if_pos rfl]
  exact hrelease

theorem follows_reportInvalid {error : ManagedError} {out : Except Failure Reconciliation}
    (h : Follows (reportInvalid ctx r error) cache xs out after) :
    (∀ x ∈ xs, x.request.SparesStatus) ∨
      ∃ reply, xs = [⟨.updateStatus r (invalidStatus ctx r error).toMembers, reply⟩] := by
  cases hdeleted : r.beingDeleted with
  | true => exact Or.inl (asks_reportInvalid hdeleted _ _ _ _ h)
  | false =>
    rw [reportInvalid, hdeleted] at h
    obtain ⟨ys, zs, reply, mid, rfl, hys, hzs⟩ := follows_attempt_bind.mp h
    obtain ⟨reply', rfl, rfl, -⟩ := follows_ask_settle.mp hys
    refine Or.inr ⟨reply, ?_⟩
    -- nothing is asked after the write, whatever came of it
    have hend : zs = [] := by
      cases reply with
      | ok stored => exact (follows_pure.mp hzs).1
      | error e =>
        cases e with
        | conflict key version => exact (follows_pure.mp hzs).1
        | _ =>
          rcases follows_bind.mp hzs with ⟨_, _, _, _, _, hthrow, _⟩ | ⟨_, _, hthrow⟩
          · cases (follows_throw.mp hthrow).2.1
          · exact (follows_throw.mp hthrow).1
    rw [hend]
    rfl

/-! ## 3. Every pass -/

/-- A pass that began with the secrets `cache` over the resource `r`, and has asked `asked`, writes
the document as the status of `r`. -/
inductive WritesStatus (ctx : Context) (r : Resource) (cache : Cache) (asked : List Exchange) :
    Json.Members → Prop where
  | active {m : Managed} {b : Behaviour} {reads : List Exchange} {mid : Cache} :
      Managed.ofResource r = .ok m → Follows (Secret.resolve m) cache reads b.secrets mid →
      quiet asked = reads ++ b.calls ctx m →
      WritesStatus ctx r cache asked (b.status ctx m).toMembers
  | invalid {error : ManagedError} :
      Managed.ofResource r = .error error →
      WritesStatus ctx r cache asked (invalidStatus ctx r error).toMembers

/-- What stands before the only entry of its kind. -/
theorem eq_of_append_cons {α : Type} {as bs cs : List α} {x y : α}
    (h : as ++ x :: bs = cs ++ [y]) (hx : x ∉ cs) : as = cs ∧ x = y := by
  rcases List.eq_nil_or_concat bs with rfl | ⟨bs', b, rfl⟩
  · obtain ⟨has, hxy⟩ := List.append_inj' h rfl
    exact ⟨has, List.head_eq_of_cons_eq hxy⟩
  · have hlast : (as ++ x :: bs') ++ [b] = cs ++ [y] := by rw [← h]; simp
    obtain ⟨hcs, -⟩ := List.append_inj' hlast rfl
    refine absurd ?_ hx
    rw [← hcs]
    exact List.mem_append_right _ List.mem_cons_self

theorem Behaviour.toService_of_mem_exchanges {b : Behaviour} {s : Stage} {x : Exchange}
    (hx : x ∈ b.exchanges ctx m s) : x.request.ToService := by
  cases s with
  | secrets => cases hx
  | compile => cases hx
  | apply =>
    rw [exchanges] at hx
    split at hx
    · cases hx
    · rw [List.mem_singleton.mp hx]
      exact .inr rfl
  | lookup =>
    rw [List.mem_singleton.mp hx]
    exact .inl rfl
  | _ =>
    rw [List.mem_singleton.mp hx]
    exact .inr rfl

theorem Behaviour.toService_of_mem_supplements {service : String} {conn : State.Connection}
    {features : AdapterFeatures} {desired : ServiceState} {direct : Except Failure ApplyReport}
    {health : Except Failure ServiceHealth} {x : Exchange}
    (hx : x ∈ supplements service conn features desired direct health) : x.request.ToService := by
  rw [supplements, List.mem_append] at hx
  rcases hx with hx | hx
  · split at hx
    · rw [List.mem_singleton.mp hx]
      exact .inr rfl
    · cases hx
  · split at hx
    · rw [List.mem_singleton.mp hx]
      exact .inr rfl
    · cases hx

/-- At its stages and after them a pass asks the adapter of its service alone. -/
theorem Behaviour.toService_of_mem_calls {b : Behaviour} {x : Exchange}
    (hx : x ∈ b.calls ctx m) : x.request.ToService := by
  have hfrom : ∀ stages, x ∈ b.callsFrom ctx m stages → x.request.ToService := by
    intro stages
    induction stages with
    | nil =>
      intro hx
      exact toService_of_mem_supplements hx
    | cons s rest ih =>
      intro hx
      rw [callsFrom, List.mem_append] at hx
      rcases hx with hx | hx
      · exact toService_of_mem_exchanges hx
      · split at hx
        · cases hx
        · exact ih hx
  exact hfrom Stage.all hx

/-- An active pass reads secrets, asks the adapter of its service, and writes its status. -/
theorem request_of_reconcileActive {out : Except Failure Reconciliation}
    (h : Follows (reconcileActive ctx m) cache xs out after) {x : Exchange} (hx : x ∈ quiet xs) :
    x.request.ReadsSecret ∨ x.request.ToService ∨
      ∃ document, x.request = .updateStatus m.resource document := by
  obtain ⟨b, reads, mid, hreads, hrest⟩ := follows_reconcileActive h
  have hasked {x : Exchange} (hx : x ∈ reads ++ b.calls ctx m) :
      x.request.ReadsSecret ∨ x.request.ToService :=
    (List.mem_append.mp hx).imp (Secret.asks_resolve m _ _ _ _ hreads x)
      Behaviour.toService_of_mem_calls
  cases hescape : b.escape? with
  | some e =>
    rw [hescape] at hrest
    rw [hrest.1] at hx
    exact (hasked hx).imp_right .inl
  | none =>
    rw [hescape] at hrest
    obtain ⟨reply, hquiet, -⟩ := hrest
    rw [hquiet, List.mem_append, List.mem_singleton] at hx
    rcases hx with hx | rfl
    · exact (hasked hx).imp_right .inl
    · exact .inr (.inr ⟨_, rfl⟩)

/-- **The status writes of a pass.**  Whatever was asked before it, a status write of a pass is on
the resource that the pass was given, and it writes what the behaviour so far calls for. -/
theorem follows_reconcile_updateStatus {asked rest : List Exchange} {resource : Resource}
    {document : Json.Members} {reply : Except Failure Resource}
    {out : Except Failure Reconciliation}
    (h : Follows (reconcile ctx r) cache
      (asked ++ ⟨.updateStatus resource document, reply⟩ :: rest) out after) :
    resource = r ∧ WritesStatus ctx r cache asked document := by
  have hmem : (⟨.updateStatus resource document, reply⟩ : Exchange) ∈
      asked ++ ⟨.updateStatus resource document, reply⟩ :: rest :=
    List.mem_append_right _ List.mem_cons_self
  -- a pass that spares statuses is none of these
  have hspares : ∀ p : Pass Reconciliation, Asks Request.SparesStatus p →
      ¬ Follows p cache (asked ++ ⟨.updateStatus resource document, reply⟩ :: rest) out after :=
    fun p hp hf => hp _ _ _ _ hf _ hmem resource document rfl
  cases hread : Managed.ofResource r with
  | error error =>
    have hreport : reconcile ctx r = reportInvalid ctx r error ∨
        Asks Request.SparesStatus (reconcile ctx r) := by
      rw [reconcile, hread]
      cases error with
      | unbounded => exact Or.inr (asks_throw _)
      | _ => exact Or.inl rfl
    rcases hreport with hreport | hreport
    · rw [hreport] at h
      rcases follows_reportInvalid h with hall | ⟨reply', hxs⟩
      · exact absurd rfl (hall _ hmem resource document)
      · obtain ⟨-, hx⟩ := @eq_of_append_cons Exchange _ _ [] _ _ hxs List.not_mem_nil
        cases hx
        exact ⟨rfl, .invalid hread⟩
    · exact absurd h (hspares _ hreport)
  | ok m =>
    rw [reconcile, hread] at h
    dsimp only at h
    split at h
    · exact absurd h (hspares _ (asks_pure _))
    split at h
    · exact absurd h (hspares _ (asks_reconcileDeleted ctx m))
    split at h
    · exact absurd h (hspares _ (asks_adopt m))
    obtain ⟨b, reads, mid, hreads, hrest⟩ := follows_reconcileActive h
    have hnot : (⟨.updateStatus resource document, reply⟩ : Exchange) ∉ reads ++ b.calls ctx m := by
      intro hx
      rcases List.mem_append.mp hx with hx | hx
      · exact (Secret.asks_resolve m _ _ _ _ hreads _ hx).sparesStore.sparesStatus _ _ rfl
      · exact (Behaviour.toService_of_mem_calls hx).sparesStore.sparesStatus _ _ rfl
    cases hescape : b.escape? with
    | some e =>
      rw [hescape] at hrest
      exact absurd (hrest.1 ▸ mem_quiet.mpr ⟨hmem, rfl⟩) hnot
    | none =>
      rw [hescape] at hrest
      obtain ⟨reply', hquiet, -⟩ := hrest
      rw [quiet_append, quiet_cons] at hquiet
      obtain ⟨hasked, hx⟩ := eq_of_append_cons hquiet hnot
      cases hx
      exact ⟨Managed.resource_of_ofResource hread, .active hread hreads hasked⟩

end Reconcile

end Steward
