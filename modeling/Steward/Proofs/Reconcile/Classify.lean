import Steward.Proofs.Managed
import Steward.Proofs.Reconcile.Active
import Steward.Proofs.Status.Condition
import Steward.Reconcile.Lifecycle

/-!
# What an active pass reports

The status that an active pass (`ConfigReconciler._reconcile_normal`) writes classifies what became
of the pass: each condition that the pass sets is found with the reason of its outcome, and the
resource is ready exactly if the pass was complete.  The pass writes this status once, after all
else, and its result says the same.
-/

namespace Steward.Reconcile

open Pass

/-! ## 1. Conditions of signals -/

namespace Behaviour

variable {generation : Int} {now : Timestamp}

theorem find?_announce_of_notMem {type : String} {ss : List Signal} (cs : Conditions)
    (h : type ∉ ss.map (·.type)) :
    (announce generation now cs ss).find? type = cs.find? type := by
  induction ss generalizing cs with
  | nil => rfl
  | cons s ss ih =>
    rw [List.map_cons, List.mem_cons, not_or] at h
    rw [announce, List.foldl_cons, ← announce, ih _ h.2]
    exact Conditions.find?_put_of_ne cs h.1

/-- Conditions of other types than those of the signals stay as they are. -/
theorem filter_announce {p : String → Bool} {ss : List Signal} (cs : Conditions)
    (h : ∀ s ∈ ss, p s.type = false) :
    (announce generation now cs ss).filter (fun c => p c.type) = cs.filter fun c => p c.type := by
  induction ss generalizing cs with
  | nil => rfl
  | cons s ss ih =>
    rw [announce, List.foldl_cons, ← announce,
      ih _ fun t ht => h t (List.mem_cons_of_mem _ ht)]
    exact Conditions.filter_put cs (h s List.mem_cons_self)

/-- The condition of a signal depends on what was there of its type only. -/
theorem Signal.condition_congr {s : Signal} {cs ds : Conditions}
    (h : cs.find? s.type = ds.find? s.type) :
    s.condition generation now cs = s.condition generation now ds := by
  simp only [Signal.condition, Conditions.transitionTime_congr h]

/-- Signals of different types are all found. -/
theorem find?_announce_of_mem {ss : List Signal} (cs : Conditions)
    (hnodup : (ss.map (·.type)).Nodup) {s : Signal} (hs : s ∈ ss) :
    (announce generation now cs ss).find? s.type = some (s.condition generation now cs) := by
  induction ss generalizing cs with
  | nil => cases hs
  | cons t ss ih =>
    rw [List.map_cons, List.nodup_cons] at hnodup
    rw [announce, List.foldl_cons, ← announce]
    rcases List.mem_cons.mp hs with rfl | hs
    · rw [find?_announce_of_notMem _ hnodup.1]
      exact Conditions.find?_put_self cs (s.condition generation now cs)
    · have hne : s.type ≠ t.type := by
        intro heq
        exact hnodup.1 (heq ▸ List.mem_map_of_mem hs)
      rw [ih _ hnodup.2 hs, Signal.condition_congr (Conditions.find?_put_of_ne cs hne)]

variable (b : Behaviour) (ctx : Context) (m : Managed)

theorem sublist_types_signals :
    ((b.signals ctx m).map (·.type)).Sublist
      [Condition.connected, Condition.synced, Condition.ready] := by
  rw [signals]
  cases b.outcome ctx m with
  | stopped s text => cases s <;> exact of_decide_eq_true rfl
  | degraded text => exact .refl _
  | complete =>
    rw [syncedSignal]
    split <;> exact .refl _

theorem nodup_types_signals : ((b.signals ctx m).map (·.type)).Nodup :=
  (b.sublist_types_signals ctx m).nodup (by decide)

/-! ## 2. The report -/

/-- The status says what became of a pass with this behaviour. -/
structure Classifies (s : Status) : Prop where
  /-- What the pass signals stands in the conditions, with the generation of the resource. -/
  signals : ∀ signal ∈ b.signals ctx m, s.conditions.find? signal.type =
    some (signal.condition m.resource.generation ctx.now m.status.conditions)
  /-- What it does not signal was not touched. -/
  others : ∀ type ∉ (b.signals ctx m).map (·.type),
    s.conditions.find? type = m.status.conditions.find? type
  ready_iff : s.conditions.isTrue Condition.ready = true ↔ b.outcome ctx m = .complete
  connected : s.connected = connectedFlag m (b.outcome ctx m)
  serviceVersion : s.serviceVersion = b.serviceVersion m (b.outcome ctx m)
  /-- Only a complete pass moves the hash and the generation. -/
  complete : b.outcome ctx m = .complete →
    s.lastAppliedHash = some (b.desired ctx m).sourceHash ∧
      s.observedGeneration = some m.resource.generation
  incomplete : b.outcome ctx m ≠ .complete →
    s.lastAppliedHash = m.status.lastAppliedHash ∧
      s.observedGeneration = m.status.observedGeneration
  /-- A pass that was stopped leaves the rest as it was. -/
  stopped : (b.outcome ctx m).passed = false →
    s.lastReconcile = m.status.lastReconcile ∧ s.unrealized = m.status.unrealized ∧
      s.health = m.status.health
  passed : (b.outcome ctx m).passed = true →
    s.lastReconcile = some ctx.now ∧
      s.unrealized = (b.desired ctx m).unrealized.map (fun u => u.feature ++ ": " ++ u.reason) ∧
      s.health = reviewed ctx b.features b.health m.status.health
  registration : s.registration = m.status.registration

theorem readySignal_mem_signals :
    readySignal m (b.outcome ctx m) ∈ b.signals ctx m :=
  List.mem_append_right _ List.mem_cons_self

theorem type_readySignal (o : Outcome) : (readySignal m o).type = Condition.ready := by
  cases o with
  | stopped s text => cases s <;> rfl
  | _ => rfl

theorem status_readySignal (o : Outcome) :
    (readySignal m o).status = Condition.holds ↔ o = .complete := by
  cases o with
  | stopped s text => cases s <;> simp [Condition.fails, Condition.holds]
  | _ => simp [Condition.fails, Condition.holds]

/-- What is found of the readiness after a pass. -/
theorem find?_ready_status : (b.status ctx m).conditions.find? Condition.ready =
    some ((readySignal m (b.outcome ctx m)).condition m.resource.generation ctx.now
      m.status.conditions) := by
  rw [← type_readySignal m (b.outcome ctx m)]
  exact find?_announce_of_mem _ (b.nodup_types_signals ctx m) (b.readySignal_mem_signals ctx m)

theorem status_isTrue_ready_iff :
    (b.status ctx m).conditions.isTrue Condition.ready = true ↔ b.outcome ctx m = .complete := by
  rw [Conditions.isTrue_iff, find?_ready_status, ← status_readySignal m]
  simp [Signal.condition]

theorem classifies_status : b.Classifies ctx m (b.status ctx m) where
  signals _ hs := find?_announce_of_mem _ (b.nodup_types_signals ctx m) hs
  others _ ht := find?_announce_of_notMem _ ht
  ready_iff := b.status_isTrue_ready_iff ctx m
  connected := rfl
  serviceVersion := rfl
  complete h := ⟨if_pos h, if_pos h⟩
  incomplete h := ⟨if_neg h, if_neg h⟩
  stopped h := by simp only [status, h, Bool.false_eq_true, if_false, and_self]
  passed h := by simp only [status, h, if_true, and_self]
  registration := rfl

/-- The result of a pass, given what came of writing its status. -/
def reconciliation (reply : Except Failure Resource) : Reconciliation :=
  { (match reply with
      | .ok _ => b.result ctx m
      | .error e => ctx.failed e.message) with
    aggregator := nextAggregator m }

end Behaviour

/-! ## 3. Writing the status -/

variable {ctx : Context} {m : Managed} {cache after : Cache} {xs : List Exchange}

/-- The status is written once; only a write that fails otherwise than by a conflict fails the
pass. -/
theorem follows_saveStatus {v : Verdict} {out : Except Failure Reconciliation}
    (h : Follows (saveStatus ctx v) cache xs out after) :
    ∃ reply, xs = [⟨.updateStatus v.managed.resource v.managed.status.toMembers, reply⟩] ∧
      out = match reply with
        | .ok _ => .ok v.result
        | .error (.conflict key version) => .ok (ctx.failed (Failure.conflict key version).message)
        | .error e => .error e := by
  rw [saveStatus, follows_attempt_bind] at h
  obtain ⟨ys, zs, reply, mid, rfl, hys, hzs⟩ := h
  obtain ⟨reply', rfl, rfl, -⟩ := follows_ask_settle.mp hys
  refine ⟨reply, ?_⟩
  cases reply with
  | ok r =>
    obtain ⟨rfl, rfl, -⟩ := follows_pure.mp hzs
    exact ⟨rfl, rfl⟩
  | error e =>
    cases e with
    | conflict key version =>
      obtain ⟨rfl, rfl, -⟩ := follows_pure.mp hzs
      exact ⟨rfl, rfl⟩
    | _ =>
      obtain ⟨rfl, rfl, -⟩ := follows_throw.mp hzs
      exact ⟨rfl, rfl⟩

/-- An active pass comes to a verdict and writes its status, unless it fails before. -/
theorem follows_reconcileActive_write {out : Except Failure Reconciliation}
    (h : Follows (reconcileActive ctx m) cache xs out after) :
    (∃ e, out = .error e ∧ Follows (active ctx m) cache xs (.error e) after) ∨
    ∃ ys v mid reply,
      xs = ys ++ [⟨.updateStatus m.resource v.managed.status.toMembers, reply⟩] ∧
      Follows (active ctx m) cache ys (.ok v) mid ∧
      out = match reply with
        | .ok _ => .ok { v.result with aggregator := nextAggregator v.managed }
        | .error (.conflict key version) =>
          .ok { ctx.failed (Failure.conflict key version).message with
            aggregator := nextAggregator v.managed }
        | .error e => .error e := by
  rw [reconcileActive] at h
  rcases Or.symm (follows_bind.mp h) with
    ⟨e, rfl, hactive⟩ | ⟨ys, zs, v, mid, rfl, hactive, hrest⟩
  · exact .inl ⟨e, rfl, hactive⟩
  refine .inr ?_
  have hresource : v.managed.resource = m.resource := by
    obtain ⟨b, reads, mid, -, -, hv⟩ := exists_behaviour hactive
    obtain ⟨-, rfl⟩ := Behaviour.ending_eq_ok_iff.mp hv.symm
    rfl
  rcases follows_bind.mp hrest with
    ⟨write, ws, result, mid', rfl, hwrite, hend⟩ | ⟨e, rfl, hwrite⟩
  · obtain ⟨rfl, rfl, -⟩ := follows_pure.mp hend
    obtain ⟨reply, rfl, hresult⟩ := follows_saveStatus hwrite
    refine ⟨ys, v, mid, reply, by rw [List.append_nil, hresource], hactive, ?_⟩
    cases reply with
    | ok r =>
      cases hresult
      rfl
    | error e =>
      cases e with
      | conflict key version =>
        cases hresult
        rfl
      | _ => cases hresult
  · obtain ⟨reply, rfl, hresult⟩ := follows_saveStatus hwrite
    refine ⟨ys, v, mid, reply, by rw [hresource], hactive, ?_⟩
    cases reply with
    | ok r => cases hresult
    | error e =>
      cases e with
      | conflict key version => cases hresult
      | _ => exact hresult

/-- What an active pass asks, the writing of its status included.  What escapes from the lookup of
the adapter ends it before that. -/
theorem follows_reconcileActive {out : Except Failure Reconciliation}
    (h : Follows (reconcileActive ctx m) cache xs out after) :
    ∃ (b : Behaviour) (reads : List Exchange) (mid : Cache),
      Follows (Secret.resolve m) cache reads b.secrets mid ∧
      match b.escape? with
      | some e => quiet xs = reads ++ b.calls ctx m ∧ out = .error e
      | none => ∃ reply : Except Failure Resource,
        quiet xs = reads ++ b.calls ctx m ++
          [⟨.updateStatus m.resource (b.status ctx m).toMembers, reply⟩] ∧
        out = match reply with
          | .ok _ => .ok (b.reconciliation ctx m reply)
          | .error (.conflict _ _) => .ok (b.reconciliation ctx m reply)
          | .error e => .error e := by
  rcases follows_reconcileActive_write h with
    ⟨e, rfl, hactive⟩ | ⟨ys, v, mid, reply, rfl, hactive, hout⟩
  · obtain ⟨b, reads, mid, hreads, hquiet, hv⟩ := exists_behaviour hactive
    refine ⟨b, reads, mid, hreads, ?_⟩
    rw [Behaviour.ending_eq_error_iff.mp hv.symm]
    exact ⟨hquiet, rfl⟩
  · obtain ⟨b, reads, mid', hreads, hquiet, hv⟩ := exists_behaviour hactive
    obtain ⟨hcaught, rfl⟩ := Behaviour.ending_eq_ok_iff.mp hv.symm
    refine ⟨b, reads, mid', hreads, ?_⟩
    rw [hcaught]
    refine ⟨reply, ?_, ?_⟩
    · rw [quiet_append, hquiet]
      rfl
    · cases reply with
      | ok r => exact hout
      | error e => cases e <;> exact hout

/-! ## 4. Active passes -/

variable {r : Resource}

/-- A resource that is neither suspended nor being deleted and has its finalizer gets an active
pass. -/
theorem reconcile_of_active (hm : Managed.ofResource r = .ok m) (hactive : m.suspended = false)
    (hlive : r.beingDeleted = false) (hfinalizer : r.hasFinalizer m.finalizer = true) :
    reconcile ctx r = reconcileActive ctx m := by
  simp [reconcile, hm, hactive, hlive, hfinalizer]

/-- **Strict order of steps and classification of failures.**  However the collaborators behave, a
pass over a resource that is active reads the secrets and asks its service stage by stage up to the
first stage that fails.  If the lookup of the adapter fails otherwise than by finding nothing, which
`_reconcile_normal` does not catch, the pass ends with that failure and writes nothing.  Otherwise
it writes one status and ends.  It does not fail, the status says what became of it, and so does its
result; only the loss of the write turns the result into a failure. -/
theorem active_pass_classified {out : Except Failure Reconciliation}
    (hm : Managed.ofResource r = .ok m) (hactive : m.suspended = false)
    (hlive : r.beingDeleted = false) (hfinalizer : r.hasFinalizer m.finalizer = true)
    (hwrites : ∀ s status e, (⟨.updateStatus s status, .error e⟩ : Exchange) ∈ xs →
      ∃ key version, e = .conflict key version)
    (h : Program.Follows (reconcile ctx r).program xs out) :
    ∃ (b : Behaviour) (reads : List Exchange) (mid : Cache),
      Follows (Secret.resolve m) [] reads b.secrets mid ∧
      (∀ x ∈ reads, x.request.ReadsSecret) ∧
      match b.escape? with
      | some e => quiet xs = reads ++ b.calls ctx m ∧ out = .error e
      | none => ∃ (status : Status) (reply : Except Failure Resource),
        quiet xs = reads ++ b.calls ctx m ++ [⟨.updateStatus r status.toMembers, reply⟩] ∧
        b.Classifies ctx m status ∧
        out = .ok (b.reconciliation ctx m reply) := by
  obtain ⟨after, h⟩ := follows_program.mp h
  rw [reconcile_of_active hm hactive hlive hfinalizer] at h
  obtain ⟨b, reads, mid, hreads, hrest⟩ := follows_reconcileActive h
  refine ⟨b, reads, mid, hreads, Secret.asks_resolve m [] mid reads b.secrets hreads, ?_⟩
  cases hescape : b.escape? with
  | some e =>
    rw [hescape] at hrest
    exact hrest
  | none =>
    rw [hescape] at hrest
    obtain ⟨reply, hquiet, hout⟩ := hrest
    rw [Managed.resource_of_ofResource hm] at hquiet
    refine ⟨b.status ctx m, reply, hquiet, b.classifies_status ctx m, ?_⟩
    cases reply with
    | ok stored => exact hout
    | error e =>
      have hq : (⟨.updateStatus r (b.status ctx m).toMembers, .error e⟩ : Exchange) ∈ quiet xs := by
        rw [hquiet]
        exact List.mem_append_right _ List.mem_cons_self
      obtain ⟨key, version, rfl⟩ := hwrites _ _ _ (mem_quiet.mp hq).1
      exact hout

/-- A pass whose only change fails to be applied, and whose status is written too late. -/
theorem active_pass_classified_degraded :
    let ctx : Context :=
      ⟨{}, fun _ _ _ => .ok { app := "radarr" }, ⟨2024, 1, 1, 0, 0, 0, 0, some 0⟩⟩
    let films : Resource :=
      { kind := "RadarrConfig", name := "films"
        finalizers := ["radarrconfig.arr-operator.io/finalizer"]
        spec := [("connection", .object [("url", .string "http://films")])] }
    let conn : State.Connection := { url := "http://films" }
    let changes : ChangeSet := { creates := [⟨.rootFolder, "/f", none, some (.rootFolder ⟨"/f"⟩)⟩] }
    let text := s!"Applied {(0 : Int)} changes, {(1 : Int)} failed"
    let lost : Failure := .conflict films.key films.version
    ∃ m, Managed.ofResource films = .ok m ∧ ∃ document,
      let xs : List Exchange :=
        [⟨.findAdapter "radarr", .ok (some ⟨false, false⟩)⟩, ⟨.connect "radarr" conn, .ok "5"⟩,
          ⟨.discover "radarr" conn, .ok {}⟩, ⟨.currentState "radarr" conn, .ok none⟩,
          ⟨.diff "radarr" none { app := "radarr" } {}, .ok changes⟩,
          ⟨.apply "radarr" conn changes, .ok { failed := 1 }⟩,
          ⟨.record (.warning films "ApplyFailed" text), ()⟩,
          ⟨.updateStatus films document, .error lost⟩]
      let out : Except Failure Reconciliation :=
        .ok { message := lost.message, requeueAfter := some 30 }
      Program.Follows (reconcile ctx films).program xs out ∧
      ∃ (b : Behaviour) (reads : List Exchange) (mid : Cache),
        Follows (Secret.resolve m) [] reads b.secrets mid ∧
        (∀ x ∈ reads, x.request.ReadsSecret) ∧
        match b.escape? with
        | some e => quiet xs = reads ++ b.calls ctx m ∧ out = .error e
        | none => ∃ (status : Status) (reply : Except Failure Resource),
          quiet xs = reads ++ b.calls ctx m ++ [⟨.updateStatus films status.toMembers, reply⟩] ∧
          b.Classifies ctx m status ∧ out = .ok (b.reconciliation ctx m reply) := by
  dsimp only
  refine ⟨_, rfl, _, .ask (.ask (.ask (.ask (.ask (.ask (.ask (.ask (.done _)))))))), ?_⟩
  refine active_pass_classified rfl rfl rfl rfl ?_
    (.ask (.ask (.ask (.ask (.ask (.ask (.ask (.ask (.done _)))))))))
  intro s status e he
  simp only [List.mem_cons, Program.Exchange.mk.injEq, reduceCtorEq, false_and, false_or,
    List.not_mem_nil, or_false] at he
  obtain ⟨hr, he⟩ := he
  cases hr
  cases he
  exact ⟨_, _, rfl⟩

/-- Not every failure of a collaborator becomes a condition, and not every failed change ends a
pass.  A lookup that raises is not caught, so no status is written; a change set that was applied in
part is only degraded, so the health report is still asked for. -/
theorem not_active_pass_classified :
    let ctx : Context :=
      ⟨{}, fun _ _ _ => .ok { app := "radarr" }, ⟨2024, 1, 1, 0, 0, 0, 0, some 0⟩⟩
    let films : Resource :=
      { kind := "RadarrConfig", name := "films"
        finalizers := ["radarrconfig.arr-operator.io/finalizer"]
        spec := [("connection", .object [("url", .string "http://films")])] }
    let conn : State.Connection := { url := "http://films" }
    let changes : ChangeSet :=
      { creates := [⟨.rootFolder, "/f", none, some (.rootFolder ⟨"/f"⟩)⟩,
          ⟨.rootFolder, "/g", none, some (.rootFolder ⟨"/g"⟩)⟩] }
    let report : ApplyReport := { applied := 1, failed := 1 }
    let text := s!"Applied {(1 : Int)} changes, {(1 : Int)} failed"
    let escaped : Failure := .raised "RuntimeError" "registry unavailable"
    ∃ m, Managed.ofResource films = .ok m ∧ m.suspended = false ∧ films.beingDeleted = false ∧
      films.hasFinalizer m.finalizer = true ∧
      Program.Follows (reconcile ctx films).program [⟨.findAdapter "radarr", .error escaped⟩]
        (.error escaped) ∧
      report.success = false ∧ ∃ document,
        Program.Follows (reconcile ctx films).program
          [⟨.findAdapter "radarr", .ok (some ⟨false, true⟩)⟩, ⟨.connect "radarr" conn, .ok "5"⟩,
            ⟨.discover "radarr" conn, .ok {}⟩, ⟨.currentState "radarr" conn, .ok none⟩,
            ⟨.diff "radarr" none { app := "radarr" } {}, .ok changes⟩,
            ⟨.apply "radarr" conn changes, .ok report⟩,
            ⟨.record (.warning films "ApplyFailed" text), ()⟩,
            ⟨.health "radarr" conn, .ok {}⟩, ⟨.updateStatus films document, .ok films⟩]
          (.ok { message := text, requeueAfter := some 30 }) := by
  dsimp only
  exact ⟨_, rfl, rfl, rfl, rfl, .ask (.done _), rfl, _,
    .ask (.ask (.ask (.ask (.ask (.ask (.ask (.ask (.ask (.done _)))))))))⟩

end Steward.Reconcile
