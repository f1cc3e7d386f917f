import Steward.Reconcile.Basic

/-!
# Reconciling: active resources

An active pass goes through its steps in order: resolve secrets, look up the adapter, connect,
discover, compile, fetch the state, diff, apply.  The first step that fails ends the pass, and its
reason makes the resource not ready.  A change set that was applied in part lets the pass go on, and
fails it at the end.  Settings that are applied directly and the health report come last and never
fail the pass.

This is `ConfigReconciler._reconcile_normal`, with `_apply_direct` and `_check_health`.
-/

namespace Steward.Reconcile

/-! ## 1. Supplementary steps -/

/-- Push what is not managed through change sets; what goes wrong is only recorded
(`_apply_direct`). -/
def applyDirect (m : Managed) (features : AdapterFeatures) (conn : State.Connection)
    (desired : ServiceState) : Pass Unit := do
  if features.directApply && desired.hasDirectSettings then
    match ← Pass.ask (.applyDirect m.service conn desired) with
    | .error e => Pass.record (.warning m.resource "DirectApplyFailed" e.message)
    | .ok r =>
      if !r.success then
        Pass.record (.warning m.resource "DirectApplyFailed"
          s!"Applied {r.applied} settings, {r.failed} failed")

/-- The status of a health report (`_health_status`). -/
def summarizeHealth (now : Timestamp) (report : ServiceHealth) : HealthSummary where
  healthy := report.healthy
  issueCount := report.issues.length
  errorCount := report.count ServiceHealth.errorType
  warningCount := report.count ServiceHealth.warningType
  lastCheck := some now
  issues := report.issues.map fun i =>
    { source := i.source, type := i.type, message := i.message
      wikiUrl := if i.wikiUrl.isEmpty then none else some i.wikiUrl }

/-- The event of an issue, if it deserves one. -/
def issueEvent? (r : Resource) (i : ServiceIssue) : Option Event :=
  let text := "[" ++ i.source ++ "] " ++ i.message
  if i.type = ServiceHealth.errorType then some (.warning r "HealthError" text)
  else if i.type = ServiceHealth.warningType then some (.warning r "HealthWarning" text)
  else none

/-- Record events in order. -/
def recordAll : List Event → Pass Unit
  | [] => return ()
  | e :: rest => do
    Pass.record e
    recordAll rest

/-- Take up the health report of the service; without one the previous one is kept
(`_check_health`). -/
def reviewHealth (ctx : Context) (m : Managed) (features : AdapterFeatures)
    (conn : State.Connection) : Pass Managed := do
  if features.health then
    match ← Pass.ask (.health m.service conn) with
    | .error _ => return m
    | .ok report =>
      recordAll (report.issues.filterMap (issueEvent? m.resource))
      return { m with status := { m.status with health := some (summarizeHealth ctx.now report) } }
  else return m

/-! ## 2. Steps, from the last to the first -/

/-- The message of a pass that reached its end. -/
def reconciledMessage : String := "Configuration reconciled successfully"

/-- A pass that reached its end: the resource is ready. -/
def ready (ctx : Context) (m : Managed) (desired : ServiceState) : Verdict where
  managed := Managed.withCondition
    { m with status := { m.status with
        lastAppliedHash := some desired.sourceHash
        observedGeneration := some m.resource.generation } }
    Condition.ready Condition.holds Reason.ready.name reconciledMessage ctx.now
  result :=
    { success := true, message := reconciledMessage
      requeueAfter := some <| match m.interval with
        | some n => if n = 0 then ctx.settings.defaultRequeueInterval else n
        | none => ctx.settings.defaultRequeueInterval }

/-- After the change set: `degraded` says what was not applied. -/
def finish (ctx : Context) (m : Managed) (features : AdapterFeatures) (conn : State.Connection)
    (desired : ServiceState) (degraded : Option String) : Pass Verdict := do
  let m := { m with status := { m.status with
    lastReconcile := some ctx.now
    unrealized := desired.unrealized.map fun u => u.feature ++ ": " ++ u.reason } }
  applyDirect m features conn desired
  let m ← reviewHealth ctx m features conn
  match degraded with
  | some message => return { managed := m, result := ctx.failed message }
  | none => return ready ctx m desired

/-- Apply the change set, if it has changes. -/
def applyChanges (ctx : Context) (m : Managed) (features : AdapterFeatures)
    (conn : State.Connection) (desired : ServiceState) (changes : ChangeSet) : Pass Verdict := do
  if changes.isEmpty then
    let m := m.withCondition Condition.synced Condition.holds Reason.inSync.name
      "Configuration is in sync" ctx.now
    finish ctx m features conn desired none
  else
    match ← Pass.ask (.apply m.service conn changes) with
    | .error e =>
      let m := m.withCondition Condition.synced Condition.fails Reason.applyFailed.name e.message
        ctx.now
      Pass.record (.warning m.resource "ApplyFailed" e.message)
      return ctx.unready m .applyFailed e.message e.message
    | .ok r =>
      if r.success then
        let text := s!"Applied {r.applied} changes"
        let m := m.withCondition Condition.synced Condition.holds Reason.synced.name text ctx.now
        Pass.record (.normal m.resource "Synced" text)
        finish ctx m features conn desired none
      else
        let text := s!"Applied {r.applied} changes, {r.failed} failed"
        let m := m.withCondition Condition.synced Condition.fails Reason.partiallyApplied.name text
          ctx.now
        let m := m.withCondition Condition.ready Condition.fails Reason.partiallyApplied.name text
          ctx.now
        Pass.record (.warning m.resource "ApplyFailed" text)
        finish ctx m features conn desired (some text)

/-- From discovery to the change set. -/
def converge (ctx : Context) (m : Managed) (features : AdapterFeatures) (secrets : SecretMap)
    (conn : State.Connection) : Pass Verdict := do
  match ← Pass.ask (.discover m.service conn) with
  | .error e => return ctx.unready m .discoveryFailed e.message e.message
  | .ok caps =>
  match ctx.compile m secrets caps with
  | .error e => return ctx.unready m .compilationFailed e.message e.message
  | .ok desired =>
  match ← Pass.ask (.currentState m.service conn) with
  | .error e => return ctx.unready m .stateFetchFailed e.message e.message
  | .ok observed =>
  match ← Pass.ask (.diff m.service observed desired caps) with
  | .error e => return ctx.unready m .diffFailed e.message e.message
  | .ok changes => applyChanges ctx m features conn desired changes

/-- Connect to the service. -/
def connect (ctx : Context) (m : Managed) (features : AdapterFeatures) (secrets : SecretMap) :
    Pass Verdict := do
  let conn := Compile.connection m secrets
  match ← Pass.ask (.connect m.service conn) with
  | .error e =>
    let m := { m with status := { m.status with connected := false } }
    let m := m.withCondition Condition.connected Condition.fails Reason.connectionFailed.name
      e.message ctx.now
    Pass.record (.warning m.resource "ConnectionFailed" e.message)
    return ctx.unready m .connectionFailed ("Cannot connect to " ++ m.service) e.message
  | .ok version =>
    let m := { m with status := { m.status with
      connected := true, serviceVersion := some version } }
    let m := m.withCondition Condition.connected Condition.holds Reason.connected.name
      ("Connected to " ++ m.service ++ " " ++ version) ctx.now
    converge ctx m features secrets conn

/-- The steps of an active pass. -/
def active (ctx : Context) (m : Managed) : Pass Verdict := do
  match ← Pass.attempt (Secret.resolve m) with
  | .error (.secret e) =>
    Pass.record (.warning m.resource "SecretResolutionFailed" e.message)
    return ctx.unready m .secretResolutionFailed e.message e.message
  | .error e => return ctx.unready m .secretResolutionFailed e.message e.message
  | .ok secrets =>
  match ← Pass.findAdapter m.service with
  | none =>
    let text := m.service ++ " adapter not registered"
    return ctx.unready m .adapterNotFound text text
  | some features => connect ctx m features secrets

/-- The aggregator whose registrations may have to change after a pass
(`_aggregator_to_coordinate`). -/
def nextAggregator (m : Managed) : Option String :=
  if m.declared.registers then
    match m.declared.aggregatorRef with
    | some ref => some ref.name
    | none =>
      match m.status.registration with
      | some r => if r.registered then r.aggregator else none
      | none => none
  else none

/-- An active pass with the writing of its status (`_reconcile_normal`). -/
def reconcileActive (ctx : Context) (m : Managed) : Pass Reconciliation := do
  let v ← active ctx m
  let result ← saveStatus ctx v
  return { result with aggregator := nextAggregator v.managed }

end Steward.Reconcile
