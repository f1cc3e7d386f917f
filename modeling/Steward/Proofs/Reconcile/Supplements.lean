import Steward.Proofs.Document.Lawful
import Steward.Proofs.Pass.Beside
import Steward.Proofs.Reconcile.Writes

/-!
# Supplementary steps have no say

Between the change set and the last conditions an active pass applies some settings directly
(`apply_direct`) and asks for the health of its service (`get_health`).  Whatever comes of that, the
pass comes to the same and writes the same status, but for the health in it
(`supplements_have_no_say`).  To say so two runs of the pass are set side by side in which the
collaborators behave alike in all else; each step of the pass keeps the two verdicts the same but
for the health.
-/

namespace Steward

/-- The resource with another health in its status. -/
def Managed.withHealth (m : Managed) (health : Option HealthSummary) : Managed :=
  { m with status := { m.status with health } }

/-- The member of a stored status that the health stands in. -/
def Status.healthMember : String := "health"

/-- But for the health, documents of statuses that differ in the health are the same. -/
theorem Status.filter_toMembers_health (s : Status) (h h' : Option HealthSummary) :
    (toMembers { s with health := h }).filter (·.1 != healthMember) =
      (toMembers { s with health := h' }).filter (·.1 != healthMember) := by
  have hmember (k : Option HealthSummary) :
      ((Block.optional "health" "health" HealthSummary.codec Status.health).write
        { s with health := k }).filter (·.1 != healthMember) = [] := by
    cases k <;> rfl
  simp only [toMembers, block, Block.write_seq, Block.write_map, List.filter_append, hmember]
  rfl

namespace Reconcile

open Pass

variable {ctx : Context} {m : Managed} {features : AdapterFeatures} {conn : State.Connection}
  {desired : ServiceState} {cache after : Cache} {xs ys : List Exchange}

/-! ## 1. Requests of supplementary steps -/

/-- The request is made by a supplementary step, or records an event. -/
def supplementary : Request → Bool
  | .applyDirect .. | .health .. | .record .. => true
  | _ => false

/-- In two runs all collaborators behave alike, but for what supplementary steps ask: to the same
request, after the same exchanges, the same is replied.  Where a status is written, be it another
one, both writes are carried out or both fail for the same reason. -/
structure BehaveAlike (xs ys : List Exchange) : Prop where
  replies : Concord supplementary xs ys
  writes : ∀ zs r s t a b us vs,
    bound supplementary xs = zs ++ ⟨.updateStatus r s, a⟩ :: us →
    bound supplementary ys = zs ++ ⟨.updateStatus r t, b⟩ :: vs →
    (a.map fun _ => ()) = b.map fun _ => ()

theorem aside_record (e : Event) : Aside supplementary (fun _ => True) (record e) :=
  @aside_ask supplementary (.record e) rfl

theorem aside_applyDirect :
    Aside supplementary (fun _ => True) (applyDirect m features conn desired) := by
  rw [applyDirect]
  refine aside_ite ((aside_ask rfl).bind fun reply _ => ?_) (aside_pure trivial)
  split
  · exact aside_record _
  · exact aside_ite (aside_record _) (aside_pure trivial)

theorem aside_recordAll (events : List Event) :
    Aside supplementary (fun _ => True) (recordAll events) := by
  induction events with
  | nil => exact aside_pure trivial
  | cons e events ih => exact (aside_record e).bind fun _ _ => ih

theorem aside_reviewHealth :
    Aside supplementary (fun m' => ∃ health, m' = m.withHealth health)
      (reviewHealth ctx m features conn) := by
  rw [reviewHealth]
  refine aside_ite ((aside_ask rfl).bind fun reply _ => ?_) (aside_pure ⟨_, rfl⟩)
  split
  · exact aside_pure ⟨_, rfl⟩
  · exact (aside_recordAll _).bind fun _ _ => aside_pure ⟨_, rfl⟩

/-! ## 2. Verdicts that are the same but for the health -/

/-- The verdicts are the same, but for the health in the status. -/
inductive ButForHealth : Verdict → Verdict → Prop where
  | mk (m : Managed) (result : Reconciliation) (h h' : Option HealthSummary) :
      ButForHealth ⟨m.withHealth h, result⟩ ⟨m.withHealth h', result⟩

theorem ButForHealth.refl (v : Verdict) : ButForHealth v v :=
  .mk v.managed v.result v.managed.status.health v.managed.status.health

theorem beside_verdict (v : Verdict) :
    Beside supplementary ButForHealth (pure v : Pass Verdict) (pure v) :=
  beside_pure (.refl v)

theorem beside_record_bind {e : Event} {f g : Unit → Pass Verdict}
    (h : Beside supplementary ButForHealth (f ()) (g ())) :
    Beside supplementary ButForHealth (record e >>= f) (record e >>= g) :=
  (aside_record e).beside_bind (aside_record e) fun _ _ _ _ => h

/-! ## 3. Steps, from the last to the first -/

theorem beside_finish {degraded : Option String} :
    Beside supplementary ButForHealth (finish ctx m features conn desired degraded)
      (finish ctx m features conn desired degraded) := by
  rw [finish]
  refine aside_applyDirect.beside_bind aside_applyDirect fun _ _ _ _ => ?_
  refine aside_reviewHealth.beside_bind aside_reviewHealth ?_
  rintro _ _ ⟨h, rfl⟩ ⟨h', rfl⟩
  cases degraded with
  | some message => exact beside_pure (.mk _ _ h h')
  | none =>
    exact beside_pure (.mk (ready ctx _ desired).managed (ready ctx _ desired).result h h')

theorem beside_applyChanges {changes : ChangeSet} :
    Beside supplementary ButForHealth (applyChanges ctx m features conn desired changes)
      (applyChanges ctx m features conn desired changes) := by
  rw [applyChanges]
  split
  · exact beside_finish
  refine beside_ask_bind rfl fun reply => ?_
  cases reply with
  | error e => exact beside_record_bind (beside_verdict _)
  | ok r =>
    dsimp only
    split
    · exact beside_record_bind beside_finish
    · exact beside_record_bind beside_finish

theorem beside_converge {secrets : SecretMap} :
    Beside supplementary ButForHealth (converge ctx m features secrets conn)
      (converge ctx m features secrets conn) := by
  rw [converge]
  refine beside_ask_bind rfl fun discovered => ?_
  cases discovered with
  | error e => exact beside_verdict _
  | ok caps =>
  dsimp only
  split
  · exact beside_verdict _
  refine beside_ask_bind rfl fun state => ?_
  cases state with
  | error e => exact beside_verdict _
  | ok observed =>
  refine beside_ask_bind rfl fun diffed => ?_
  cases diffed with
  | error e => exact beside_verdict _
  | ok changes => exact beside_applyChanges

theorem beside_connect {secrets : SecretMap} :
    Beside supplementary ButForHealth (connect ctx m features secrets)
      (connect ctx m features secrets) := by
  rw [connect]
  refine beside_ask_bind rfl fun connected => ?_
  cases connected with
  | error e => exact beside_record_bind (beside_verdict _)
  | ok version => exact beside_converge

theorem beside_active : Beside supplementary ButForHealth (active ctx m) (active ctx m) := by
  have hresolve : Asks (fun q => supplementary q = false) (Secret.resolve m) :=
    (Secret.asks_resolve m).mono fun q ⟨ns, name, hq⟩ => hq ▸ rfl
  rw [active]
  refine hresolve.beside.attempt_bind fun resolved _ hsame => ?_
  cases hsame with
  | error e =>
    cases e with
    | secret e => exact beside_record_bind (beside_verdict _)
    | _ => exact beside_verdict _
  | ok hsecrets =>
    cases hsecrets
    have hlookup : Asks (fun q => supplementary q = false) (findAdapter m.service) :=
      asks_ask_settle rfl
    refine hlookup.beside.bind ?_
    rintro adapter _ rfl
    cases adapter with
    | none => exact beside_verdict _
    | some features => exact beside_connect

/-! ## 4. What is written -/

/-- The statuses that were written, with the resources they were written of. -/
def statusWrites (xs : List Exchange) : List (Resource × Json.Members) :=
  xs.filterMap fun x => match x.request with
    | .updateStatus r document => some (r, document)
    | _ => none

/-- The health of the service was asked for, and nothing was reported. -/
def HealthRefused (xs : List Exchange) : Prop :=
  ∃ service conn e, (⟨.health service conn, .error e⟩ : Exchange) ∈ xs

theorem statusWrites_eq_nil (h : ∀ x ∈ xs, x.request.SparesStatus) : statusWrites xs = [] := by
  rw [statusWrites, List.filterMap_eq_nil_iff]
  intro x hx
  split
  · rename_i q d hrequest
    exact absurd hrequest (h x hx q d)
  · rfl

/-- A status that is written at the end is the only one, if statuses were left alone before. -/
theorem statusWrites_write (h : ∀ x ∈ xs, x.request.SparesStatus)
    (r : Resource) (document : Json.Members) (reply : Except Failure Resource) :
    statusWrites (xs ++ [⟨.updateStatus r document, reply⟩]) = [(r, document)] := by
  rw [statusWrites, List.filterMap_append, ← statusWrites, statusWrites_eq_nil h]
  rfl

/-- A run of a pass over `r` wrote one status, `s`; where the report was refused, the health in it
is the `previous` one. -/
structure Wrote (r : Resource) (previous : Option HealthSummary) (s : Status)
    (xs : List Exchange) : Prop where
  written : statusWrites xs = [(r, s.toMembers)]
  kept : HealthRefused xs → s.health = previous

/-- The lookup of the adapter failed otherwise than by finding nothing.  The run ended with that
failure, and wrote no status. -/
structure LookupEscaped (service : String) (xs : List Exchange)
    (out : Except Failure Reconciliation) : Prop where
  raised : ∃ e, (⟨.findAdapter service, .error e⟩ : Exchange) ∈ xs ∧ out = .error e
  unwritten : statusWrites xs = []

/-- Before its status is written, an active pass leaves statuses alone. -/
theorem asks_active : Asks Request.SparesStatus (active ctx m) := by
  intro cache after xs out h
  obtain ⟨b, reads, mid, hreads, hquiet, -⟩ := exists_behaviour h
  have hrecords : ∀ q : Request, q.Records → q.SparesStatus := by
    rintro _ ⟨e, rfl⟩
    exact fun _ _ => Request.noConfusion
  refine forall_of_quiet hrecords fun x hx => ?_
  rw [hquiet] at hx
  rcases List.mem_append.mp hx with hx | hx
  · exact (Secret.asks_resolve m _ _ _ _ hreads x hx).sparesStore.sparesStatus
  · exact (Behaviour.toService_of_mem_calls hx).sparesStore.sparesStatus

namespace Behaviour

variable {b : Behaviour} {service : String} {reply : Except Failure ServiceHealth}

/-- No stage asks for the health. -/
theorem health_notMem_exchanges (s : Stage) :
    (⟨.health service conn, reply⟩ : Exchange) ∉ b.exchanges ctx m s := by
  cases s with
  | secrets | compile => exact List.not_mem_nil
  | apply =>
    rw [exchanges]
    split
    · exact List.not_mem_nil
    · exact fun h => nomatch List.mem_singleton.mp h
  | _ => exact fun h => nomatch List.mem_singleton.mp h

theorem eq_health_of_mem_callsFrom {stages : List Stage}
    (h : (⟨.health service conn, reply⟩ : Exchange) ∈ b.callsFrom ctx m stages) :
    reply = b.health := by
  induction stages with
  | nil =>
    rw [callsFrom, supplements, List.mem_append] at h
    rcases h with h | h
    · split at h
      · cases List.mem_singleton.mp h
      · cases h
    · split at h
      · cases List.mem_singleton.mp h
        rfl
      · cases h
  | cons s rest ih =>
    rw [callsFrom, List.mem_append] at h
    rcases h with h | h
    · exact absurd h (health_notMem_exchanges s)
    · split at h
      · cases h
      · exact ih h

/-- The status of a pass whose health report was refused has the health that was there before. -/
theorem health_of_refused {e : Failure} (h : b.health = .error e) :
    (b.status ctx m).health = m.status.health := by
  simp only [status, reviewed, h]
  split
  · split <;> rfl
  · rfl

end Behaviour

theorem wrote_of_active {v : Verdict} (h : Follows (active ctx m) cache xs (.ok v) after)
    (reply : Except Failure Resource) :
    Wrote m.resource m.status.health v.managed.status
      (xs ++ [⟨.updateStatus m.resource v.managed.status.toMembers, reply⟩]) := by
  refine ⟨statusWrites_write (asks_active _ _ _ _ h) m.resource _ reply, ?_⟩
  rintro ⟨service, conn, e, hmem⟩
  obtain ⟨b, reads, mid, hreads, hquiet, hv⟩ := exists_behaviour h
  obtain ⟨-, rfl⟩ := Behaviour.ending_eq_ok_iff.mp hv.symm
  rcases List.mem_append.mp hmem with hmem | hmem
  · have hasked : (⟨.health service conn, .error e⟩ : Exchange) ∈ reads ++ b.calls ctx m := by
      rw [← hquiet]
      exact mem_quiet.mpr ⟨hmem, rfl⟩
    rcases List.mem_append.mp hasked with hread | hcall
    · obtain ⟨_, _, hget⟩ := Secret.asks_resolve m _ _ _ _ hreads _ hread
      cases hget
    · exact Behaviour.health_of_refused (Behaviour.eq_health_of_mem_callsFrom hcall).symm
  · cases List.mem_singleton.mp hmem

/-- An active pass fails before its status is written only with what escapes from the lookup. -/
theorem lookupEscaped_of_active {e : Failure}
    (h : Follows (active ctx m) cache xs (.error e) after) :
    LookupEscaped m.service xs (.error e) := by
  obtain ⟨b, reads, mid, -, hquiet, hv⟩ := exists_behaviour h
  have hescape : b.escape? = some e := Behaviour.ending_eq_error_iff.mp hv.symm
  refine ⟨⟨e, (mem_quiet.mp ?_).1, rfl⟩, statusWrites_eq_nil (asks_active _ _ _ _ h)⟩
  rw [hquiet]
  exact List.mem_append_right _ (b.findAdapter_mem_calls ctx m hescape)

/-! ## 5. The whole pass -/

/-- **Supplementary steps have no say.**  In two active passes over one resource at one time in
which all collaborators behave alike but for applying settings directly and reporting the health,
the result is the same and so is the status that is written, but for the health in it.  Only where
the lookup of the adapter fails in a way that nothing catches is no status written, in neither. -/
theorem supplements_have_no_say {r : Resource} {out out' : Except Failure Reconciliation}
    (hm : Managed.ofResource r = .ok m) (hactive : m.suspended = false)
    (hlive : r.beingDeleted = false) (hfinalizer : r.hasFinalizer m.finalizer = true)
    (hxs : Program.Follows (reconcile ctx r).program xs out)
    (hys : Program.Follows (reconcile ctx r).program ys out') (halike : BehaveAlike xs ys) :
    out = out' ∧
      (LookupEscaped m.service xs out ∧ LookupEscaped m.service ys out' ∨
        ∃ s t, Wrote r m.status.health s xs ∧ Wrote r m.status.health t ys ∧
          t = { s with health := t.health } ∧
          s.toMembers.filter (·.1 != Status.healthMember) =
            t.toMembers.filter (·.1 != Status.healthMember)) := by
  have hreconcile : reconcile ctx r = reconcileActive ctx m :=
    reconcile_of_active hm hactive hlive hfinalizer
  obtain rfl := Managed.resource_of_ofResource hm
  rw [hreconcile] at hxs hys
  obtain ⟨after, hxs⟩ := follows_program.mp hxs
  obtain ⟨after', hys⟩ := follows_program.mp hys
  -- both runs come to a verdict, or both end before with one failure
  rcases follows_reconcileActive_write hxs with
    ⟨e, rfl, hv⟩ | ⟨us, v, mid, reply, rfl, hv, rfl⟩ <;>
    rcases follows_reconcileActive_write hys with
      ⟨e', rfl, hw⟩ | ⟨vs, w, mid', reply', rfl, hw, rfl⟩
  · obtain ⟨-, -, hsame⟩ := beside_active _ _ _ _ _ _ _ hv hw halike.replies
    cases hsame
    exact ⟨rfl, .inl ⟨lookupEscaped_of_active hv, lookupEscaped_of_active hw⟩⟩
  · obtain ⟨-, -, hsame⟩ := beside_active _ _ _ _ _ _ _ hv hw halike.replies.of_append_right
    cases hsame
  · obtain ⟨-, -, hsame⟩ := beside_active _ _ _ _ _ _ _ hv hw halike.replies.of_append_left
    cases hsame
  obtain ⟨hbound, -, hsame⟩ := beside_active _ _ _ _ _ _ _ hv hw halike.replies.of_append
  have hwritten : (reply.map fun _ => ()) = reply'.map fun _ => () :=
    halike.writes (bound supplementary us) _ _ _ reply reply' [] [] (bound_append us _)
      (hbound ▸ bound_append vs _)
  have hleft := wrote_of_active hv reply
  have hright := wrote_of_active hw reply'
  cases hsame with
  | ok hbut =>
  cases hbut with
  | mk m' result h h' =>
  refine ⟨?_, .inr ⟨(m'.withHealth h).status, (m'.withHealth h').status, hleft, hright, rfl,
    Status.filter_toMembers_health m'.status h h'⟩⟩
  -- the result is read off the verdict, or off the failure that both writes have
  cases reply with
  | ok stored =>
    cases reply' with
    | ok stored' => rfl
    | error e => cases hwritten
  | error e =>
    cases reply' with
    | ok stored => cases hwritten
    | error e' =>
      cases hwritten
      cases e <;> rfl

/-- Settings that cannot be applied and no health report, beside settings that are applied and a
report of an error: the resource is ready in both runs. -/
theorem supplements_have_no_say_films :
    let now : Timestamp := ⟨2024, 1, 1, 0, 0, 0, 0, some 0⟩
    let desired : ServiceState := { app := "radarr", authentication := some { method := "forms" } }
    let ctx : Context := ⟨{}, fun _ _ _ => .ok desired, now⟩
    let films : Resource :=
      { kind := "RadarrConfig", name := "films"
        finalizers := ["radarrconfig.arr-operator.io/finalizer"]
        spec := [("connection", .object [("url", .string "http://films")])] }
    let conn : State.Connection := { url := "http://films" }
    let report : ServiceHealth :=
      { healthy := false, issues := [{ source := "disk", type := "error", message := "full" }] }
    let holds (type reason message : String) : Condition :=
      ⟨type, "True", reason, message, some 1, some now⟩
    let written (health : Option HealthSummary) : Status :=
      { conditions := [holds "Connected" "Connected" "Connected to radarr 5",
          holds "Synced" "InSync" "Configuration is in sync",
          holds "Ready" "Ready" reconciledMessage]
        connected := true, serviceVersion := some "5", lastReconcile := some now
        lastAppliedHash := some "", observedGeneration := some 1, health }
    let asked : List Exchange :=
      [⟨.findAdapter "radarr", .ok (some ⟨true, true⟩)⟩, ⟨.connect "radarr" conn, .ok "5"⟩,
        ⟨.discover "radarr" conn, .ok {}⟩, ⟨.currentState "radarr" conn, .ok none⟩,
        ⟨.diff "radarr" none desired {}, .ok {}⟩]
    let xs : List Exchange := asked ++
      [⟨.applyDirect "radarr" conn desired, .error (.raised "ValueError" "no")⟩,
        ⟨.record (.warning films "DirectApplyFailed" "no"), ()⟩,
        ⟨.health "radarr" conn, .error (.raised "ValueError" "no")⟩,
        ⟨.updateStatus films (written none).toMembers, .ok films⟩]
    let ys : List Exchange := asked ++
      [⟨.applyDirect "radarr" conn desired, .ok { applied := 1 }⟩,
        ⟨.health "radarr" conn, .ok report⟩,
        ⟨.record (.warning films "HealthError" "[disk] full"), ()⟩,
        ⟨.updateStatus films (written (summarizeHealth now report)).toMembers, .ok films⟩]
    let out : Except Failure Reconciliation :=
      .ok { success := true, message := reconciledMessage, requeueAfter := some 300 }
    ∃ m, Managed.ofResource films = .ok m ∧
      Program.Follows (reconcile ctx films).program xs out ∧
      Program.Follows (reconcile ctx films).program ys out ∧ BehaveAlike xs ys ∧
      ∃ s t, Wrote films m.status.health s xs ∧ Wrote films m.status.health t ys ∧
        t = { s with health := t.health } ∧
        s.toMembers.filter (·.1 != Status.healthMember) =
          t.toMembers.filter (·.1 != Status.healthMember) := by
  intro now desired ctx films conn report holds written asked xs ys out
  have hxs : Program.Follows (reconcile ctx films).program xs out := by
    dsimp only [films]
    exact .ask (.ask (.ask (.ask (.ask (.ask (.ask (.ask (.ask (.done _)))))))))
  have hys : Program.Follows (reconcile ctx films).program ys out := by
    dsimp only [films]
    exact .ask (.ask (.ask (.ask (.ask (.ask (.ask (.ask (.ask (.done _)))))))))
  have halike : BehaveAlike xs ys := by
    have hparts : Request.updateStatus films (written none).toMembers ≠
        .updateStatus films (written (summarizeHealth now report)).toMembers := by
      intro h
      have hdocuments := (Request.updateStatus.inj h).2
      revert hdocuments
      decide +kernel
    refine ⟨@concord_of_ne _ _ _ asked _ _ hparts rfl rfl, ?_⟩
    intro zs r s t a b us vs hx hy
    have hnot (document : Json.Members) (reply : Except Failure Resource) :
        (⟨.updateStatus r document, reply⟩ : Exchange) ∉ asked := by
      simp [asked]
    have hx' : zs ++ ⟨.updateStatus r s, a⟩ :: us = asked ++ [_] := hx.symm
    have hy' : zs ++ ⟨.updateStatus r t, b⟩ :: vs = asked ++ [_] := hy.symm
    cases (eq_of_append_cons hx' (hnot s a)).2
    cases (eq_of_append_cons hy' (hnot t b)).2
    rfl
  obtain ⟨m, hm, hfinalizer, hactive⟩ : ∃ m, Managed.ofResource films = .ok m ∧
      films.hasFinalizer m.finalizer = true ∧ m.suspended = false := by
    dsimp only [films]
    exact ⟨_, rfl, rfl, rfl⟩
  rcases (supplements_have_no_say hm hactive rfl hfinalizer hxs hys halike).2 with
    ⟨⟨⟨e, -, hout⟩, -⟩, -⟩ | hwrote
  · dsimp only [out] at hout
    cases hout
  · exact ⟨m, hm, hxs, hys, halike, hwrote⟩

end Reconcile

end Steward
