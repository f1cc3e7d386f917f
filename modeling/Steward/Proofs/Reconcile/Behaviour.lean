import Steward.Proofs.Pass.Trace
import Steward.Reconcile.Active

/-!
# What an active pass has to do

The collaborators of an active pass may do anything at each of its stages (`Behaviour`).  What they
do decides how far the pass comes and what becomes of it (`outcome`), what it asks on the way
(`calls`), what it says in its conditions (`signals`), the status that it writes (`status`) and its
result (`result`).  One failure is caught nowhere and ends the pass without a status: the lookup of
the adapter may fail otherwise than by finding nothing (`escape?`).  All of these are read off the
behaviour here, without following the pass.
-/

namespace Steward.Reconcile

open Pass

/-! ## 1. Stages -/

/-- The stages that can end an active pass. -/
inductive Stage where
  | secrets
  | lookup
  | connect
  | discover
  | compile
  | currentState
  | diff
  | apply
  deriving DecidableEq, Repr

namespace Stage

/-- The stages in order. -/
def all : List Stage :=
  [.secrets, .lookup, .connect, .discover, .compile, .currentState, .diff, .apply]

/-- Why a resource is not ready if the stage fails. -/
def reason : Stage → Reason
  | .secrets => .secretResolutionFailed
  | .lookup => .adapterNotFound
  | .connect => .connectionFailed
  | .discover => .discoveryFailed
  | .compile => .compilationFailed
  | .currentState => .stateFetchFailed
  | .diff => .diffFailed
  | .apply => .applyFailed

end Stage

/-! ## 2. Behaviour -/

/-- What came of each request of an active pass.  The secrets are those that were resolved; what the
pass does not come to has no say. -/
structure Behaviour where
  secrets : Except Failure SecretMap
  adapter : Except Failure (Option AdapterFeatures) := .ok none
  connect : Except Failure String := .ok ""
  discover : Except Failure Capabilities := .ok {}
  currentState : Except Failure (Option ServiceState) := .ok none
  diff : Except Failure ChangeSet := .ok {}
  apply : Except Failure ApplyReport := .ok {}
  applyDirect : Except Failure ApplyReport := .ok {}
  health : Except Failure ServiceHealth := .ok {}

/-- The text of a failure, if there was one. -/
@[simp]
def failureText? {α : Type} : Except Failure α → Option String
  | .ok _ => none
  | .error e => some e.message

/-- A resource whose service could not be connected to. -/
def rebuffed (ctx : Context) (m : Managed) (message : String) : Managed :=
  Managed.withCondition { m with status := { m.status with connected := false } }
    Condition.connected Condition.fails Reason.connectionFailed.name message ctx.now

/-- A resource once its service was connected to. -/
def greeted (ctx : Context) (m : Managed) (version : String) : Managed :=
  Managed.withCondition
    { m with status := { m.status with connected := true, serviceVersion := some version } }
    Condition.connected Condition.holds Reason.connected.name
    ("Connected to " ++ m.service ++ " " ++ version) ctx.now

@[simp]
theorem service_withCondition (m : Managed) (type status reason message : String)
    (now : Timestamp) : (m.withCondition type status reason message now).service = m.service := rfl

@[simp]
theorem service_greeted (ctx : Context) (m : Managed) (version : String) :
    (greeted ctx m version).service = m.service := rfl

/-- What a pass asks after its last stage: for settings to be applied directly, if there are any and
the adapter can, and for the health report, if the adapter has one. -/
def supplements (service : String) (conn : State.Connection) (features : AdapterFeatures)
    (desired : ServiceState) (direct : Except Failure ApplyReport)
    (health : Except Failure ServiceHealth) : List Exchange :=
  (if features.directApply && desired.hasDirectSettings then
    [⟨.applyDirect service conn desired, direct⟩] else []) ++
  (if features.health then [⟨.health service conn, health⟩] else [])

/-- The health of a service: the previous one is kept without a report. -/
def reviewed (ctx : Context) (features : AdapterFeatures) (health : Except Failure ServiceHealth)
    (previous : Option HealthSummary) : Option HealthSummary :=
  if features.health then
    match health with
    | .ok report => some (summarizeHealth ctx.now report)
    | .error _ => previous
  else previous

/-- A resource after the supplementary steps. -/
def finished (ctx : Context) (m : Managed) (features : AdapterFeatures) (desired : ServiceState)
    (health : Except Failure ServiceHealth) : Managed :=
  { m with status := { m.status with
      lastReconcile := some ctx.now
      unrealized := desired.unrealized.map fun u => u.feature ++ ": " ++ u.reason
      health := reviewed ctx features health m.status.health } }

/-- The verdict of a pass that came to its end: what was not applied fails it. -/
def conclude (ctx : Context) (m : Managed) (desired : ServiceState) : Option String → Verdict
  | some message => ⟨m, ctx.failed message⟩
  | none => ready ctx m desired

namespace Behaviour

variable (b : Behaviour) (ctx : Context) (m : Managed)

@[simp]
def secretMap : SecretMap := b.secrets.toOption.getD []

@[simp]
def features : AdapterFeatures := b.adapter.toOption.join.getD ⟨false, false⟩

@[simp]
def connection : State.Connection := Compile.connection m b.secretMap

@[simp]
def version : String := b.connect.toOption.getD ""

@[simp]
def caps : Capabilities := b.discover.toOption.getD {}

/-- What the compiler makes of the resource. -/
@[simp]
def compiled : Except Failure ServiceState :=
  ctx.compile (greeted ctx m b.version) b.secretMap b.caps

@[simp]
def desired : ServiceState := (b.compiled ctx m).toOption.getD { app := m.service }

@[simp]
def observed : Option ServiceState := b.currentState.toOption.join

@[simp]
def changes : ChangeSet := b.diff.toOption.getD {}

@[simp]
def report : ApplyReport := b.apply.toOption.getD {}

/-! ## 3. Outcomes -/

/-- Why a stage fails, if it does.  An empty change set is not applied. -/
@[simp]
def failure? : Stage → Option String
  | .secrets => failureText? b.secrets
  | .lookup =>
    match b.adapter with
    | .ok (some _) => none
    | .ok none => some (m.service ++ " adapter not registered")
    | .error e => some e.message
  | .connect => failureText? b.connect
  | .discover => failureText? b.discover
  | .compile => failureText? (b.compiled ctx m)
  | .currentState => failureText? b.currentState
  | .diff => failureText? b.diff
  | .apply => if b.changes.isEmpty then none else failureText? b.apply

/-- What was not applied of the change set, if anything. -/
@[simp]
def shortfall? : Option String :=
  if b.changes.isEmpty || b.report.success then none
  else some s!"Applied {b.report.applied} changes, {b.report.failed} failed"

/-- What becomes of an active pass. -/
inductive Outcome where
  /-- The first stage that failed ended it. -/
  | stopped (stage : Stage) (text : String)
  /-- It went on after a change set that was applied in part. -/
  | degraded (text : String)
  | complete
  deriving DecidableEq, Repr

/-- What becomes of a pass that has these stages before it: the first that fails ends it. -/
@[simp]
def outcomeFrom : List Stage → Outcome
  | [] =>
    match b.shortfall? with
    | some text => .degraded text
    | none => .complete
  | s :: rest =>
    match b.failure? ctx m s with
    | some text => .stopped s text
    | none => outcomeFrom rest

def outcome : Outcome := b.outcomeFrom ctx m Stage.all

/-! ## 4. Requests -/

/-- What the pass asks at a stage, and what is replied.  Secrets are read on their own. -/
@[simp]
def exchanges : Stage → List Exchange
  | .secrets => []
  | .lookup => [⟨.findAdapter m.service, b.adapter⟩]
  | .connect => [⟨.connect m.service (b.connection m), b.connect⟩]
  | .discover => [⟨.discover m.service (b.connection m), b.discover⟩]
  | .compile => []
  | .currentState => [⟨.currentState m.service (b.connection m), b.currentState⟩]
  | .diff => [⟨.diff m.service b.observed (b.desired ctx m) b.caps, b.diff⟩]
  | .apply =>
    if b.changes.isEmpty then [] else [⟨.apply m.service (b.connection m) b.changes, b.apply⟩]

/-- What a pass asks that has these stages before it, up to the first that fails. -/
@[simp]
def callsFrom : List Stage → List Exchange
  | [] =>
    supplements m.service (b.connection m) b.features (b.desired ctx m) b.applyDirect b.health
  | s :: rest =>
    b.exchanges ctx m s ++ if (b.failure? ctx m s).isSome then [] else callsFrom rest

def calls : List Exchange := b.callsFrom ctx m Stage.all

/-! ## 5. Conditions -/

/-- A condition as a pass sets it. -/
structure Signal where
  type : String
  status : String
  reason : Reason
  message : String
  deriving DecidableEq, Repr

/-- The condition that a signal becomes beside those that were there. -/
def Signal.condition (s : Signal) (generation : Int) (now : Timestamp) (cs : Conditions) :
    Condition where
  type := s.type
  status := s.status
  reason := s.reason.name
  message := s.message
  observedGeneration := some generation
  lastTransition := some (cs.transitionTime s.type s.status now)

/-- Set the conditions of signals in order. -/
def announce (generation : Int) (now : Timestamp) (cs : Conditions) (ss : List Signal) :
    Conditions :=
  ss.foldl (fun cs s => cs.put (s.condition generation now cs)) cs

/-- What is said of the connection, once it was tried. -/
@[simp]
def connectedSignal : Outcome → List Signal
  | .stopped .secrets _ | .stopped .lookup _ => []
  | .stopped .connect text =>
    [⟨Condition.connected, Condition.fails, .connectionFailed, text⟩]
  | _ =>
    [⟨Condition.connected, Condition.holds, .connected,
      "Connected to " ++ m.service ++ " " ++ b.version⟩]

/-- What is said of the configuration, once the change set was tried. -/
@[simp]
def syncedSignal : Outcome → List Signal
  | .stopped .apply text => [⟨Condition.synced, Condition.fails, .applyFailed, text⟩]
  | .stopped _ _ => []
  | .degraded text => [⟨Condition.synced, Condition.fails, .partiallyApplied, text⟩]
  | .complete =>
    if b.changes.isEmpty then
      [⟨Condition.synced, Condition.holds, .inSync, "Configuration is in sync"⟩]
    else
      [⟨Condition.synced, Condition.holds, .synced, s!"Applied {b.report.applied} changes"⟩]

/-- What is said of the resource as a whole: the first stage that failed is the reason. -/
@[simp]
def readySignal : Outcome → Signal
  | .stopped .connect _ =>
    ⟨Condition.ready, Condition.fails, .connectionFailed, "Cannot connect to " ++ m.service⟩
  | .stopped stage text => ⟨Condition.ready, Condition.fails, stage.reason, text⟩
  | .degraded text => ⟨Condition.ready, Condition.fails, .partiallyApplied, text⟩
  | .complete => ⟨Condition.ready, Condition.holds, .ready, reconciledMessage⟩

/-- The conditions that the pass sets, in order. -/
def signals : List Signal :=
  b.connectedSignal m (b.outcome ctx m) ++ b.syncedSignal (b.outcome ctx m) ++
    [readySignal m (b.outcome ctx m)]

/-! ## 6. The status and the result -/

/-- The connection flag: untouched where the connection was not tried. -/
def connectedFlag : Outcome → Bool
  | .stopped .secrets _ | .stopped .lookup _ => m.status.connected
  | .stopped .connect _ => false
  | _ => true

def serviceVersion : Outcome → Option String
  | .stopped .secrets _ | .stopped .lookup _ | .stopped .connect _ => m.status.serviceVersion
  | _ => some b.version

/-- The pass came past its last stage. -/
def Outcome.passed : Outcome → Bool
  | .stopped _ _ => false
  | _ => true

/-- The status that the pass writes.  The hash and the generation are those of the last pass that
was complete; the registration is left to the coordinator. -/
def status : Status :=
  let o := b.outcome ctx m
  { conditions := announce m.resource.generation ctx.now m.status.conditions (b.signals ctx m)
    connected := connectedFlag m o
    serviceVersion := b.serviceVersion m o
    lastReconcile := if o.passed then some ctx.now else m.status.lastReconcile
    lastAppliedHash :=
      if o = .complete then some (b.desired ctx m).sourceHash else m.status.lastAppliedHash
    observedGeneration :=
      if o = .complete then some m.resource.generation else m.status.observedGeneration
    health :=
      if o.passed then reviewed ctx b.features b.health m.status.health else m.status.health
    registration := m.status.registration
    unrealized :=
      if o.passed then (b.desired ctx m).unrealized.map fun u => u.feature ++ ": " ++ u.reason
      else m.status.unrealized }

/-- Seconds until the pass after one that was complete. -/
def interval : Int :=
  match m.interval with
  | some n => if n = 0 then ctx.settings.defaultRequeueInterval else n
  | none => ctx.settings.defaultRequeueInterval

/-- The result of the pass, if its status is written. -/
def result : Reconciliation :=
  match b.outcome ctx m with
  | .stopped _ text => ctx.failed text
  | .degraded text => ctx.failed text
  | .complete =>
    { success := true, message := reconciledMessage, requeueAfter := some (interval ctx m) }

/-- What the pass has come to before its status is written. -/
def verdict : Verdict := ⟨{ m with status := b.status ctx m }, b.result ctx m⟩

/-- A failure that nothing catches: that of an adapter lookup which fails otherwise than by finding
nothing, once the pass has come to it. -/
def escape? : Option Failure :=
  match b.secrets, b.adapter with
  | .ok _, .error e => some e
  | _, _ => none

/-- How the pass ends before its status is written: with its verdict, or with what escapes. -/
def ending : Except Failure Verdict :=
  match b.escape? with
  | some e => .error e
  | none => .ok (b.verdict ctx m)

theorem escape?_eq_some_iff {e : Failure} :
    b.escape? = some e ↔ (∃ secrets, b.secrets = .ok secrets) ∧ b.adapter = .error e := by
  rw [escape?]
  cases b.secrets <;> cases b.adapter <;> simp

/-- What escapes is what the lookup replied. -/
theorem findAdapter_mem_calls {e : Failure} (h : b.escape? = some e) :
    ⟨.findAdapter m.service, .error e⟩ ∈ b.calls ctx m := by
  obtain ⟨⟨secrets, hsecrets⟩, hadapter⟩ := b.escape?_eq_some_iff.mp h
  simp [calls, Stage.all, hsecrets, hadapter]

theorem ending_of_caught (h : b.escape? = none) : b.ending ctx m = .ok (b.verdict ctx m) := by
  rw [ending, h]

variable {b ctx m} in
theorem ending_eq_ok_iff {v : Verdict} :
    b.ending ctx m = .ok v ↔ b.escape? = none ∧ b.verdict ctx m = v := by
  rw [ending]
  cases b.escape? <;> simp

variable {b ctx m} in
theorem ending_eq_error_iff {e : Failure} : b.ending ctx m = .error e ↔ b.escape? = some e := by
  rw [ending]
  cases b.escape? <;> simp

/-! ## 7. The verdict of an outcome -/

variable {b ctx m} (text : String)

theorem verdict_of_stopped_secrets (h : b.outcome ctx m = .stopped .secrets text) :
    b.verdict ctx m = ctx.unready m .secretResolutionFailed text text := by
  simp only [verdict, status, result, signals, h]
  rfl

theorem verdict_of_stopped_lookup (h : b.outcome ctx m = .stopped .lookup text) :
    b.verdict ctx m = ctx.unready m .adapterNotFound text text := by
  simp only [verdict, status, result, signals, h]
  rfl

theorem verdict_of_stopped_connect (h : b.outcome ctx m = .stopped .connect text) :
    b.verdict ctx m =
      ctx.unready (rebuffed ctx m text) .connectionFailed ("Cannot connect to " ++ m.service)
        text := by
  simp only [verdict, status, result, signals, h]
  rfl

/-- A stage between the connection and the change set only says why the resource is not ready. -/
theorem verdict_of_stopped {s : Stage} (h : b.outcome ctx m = .stopped s text)
    (hs : s = .discover ∨ s = .compile ∨ s = .currentState ∨ s = .diff) :
    b.verdict ctx m = ctx.unready (greeted ctx m b.version) s.reason text text := by
  rcases hs with rfl | rfl | rfl | rfl
  all_goals
    simp only [verdict, status, result, signals, h]
    rfl

theorem verdict_of_stopped_apply (h : b.outcome ctx m = .stopped .apply text) :
    b.verdict ctx m =
      ctx.unready ((greeted ctx m b.version).withCondition Condition.synced Condition.fails
        Reason.applyFailed.name text ctx.now) .applyFailed text text := by
  simp only [verdict, status, result, signals, h]
  rfl

theorem verdict_of_degraded (h : b.outcome ctx m = .degraded text) :
    b.verdict ctx m =
      conclude ctx
        (finished ctx
          (((greeted ctx m b.version).withCondition Condition.synced Condition.fails
            Reason.partiallyApplied.name text ctx.now).withCondition Condition.ready
            Condition.fails Reason.partiallyApplied.name text ctx.now)
          b.features (b.desired ctx m) b.health)
        (b.desired ctx m) (some text) := by
  simp only [verdict, status, result, signals, h]
  rfl

theorem verdict_of_unchanged (h : b.outcome ctx m = .complete) (hempty : b.changes.isEmpty = true) :
    b.verdict ctx m =
      conclude ctx
        (finished ctx ((greeted ctx m b.version).withCondition Condition.synced Condition.holds
          Reason.inSync.name "Configuration is in sync" ctx.now) b.features (b.desired ctx m)
          b.health)
        (b.desired ctx m) none := by
  simp only [verdict, status, result, signals, h, syncedSignal, hempty, if_true]
  rfl

theorem verdict_of_applied (h : b.outcome ctx m = .complete)
    (hempty : b.changes.isEmpty = false) :
    b.verdict ctx m =
      conclude ctx
        (finished ctx ((greeted ctx m b.version).withCondition Condition.synced Condition.holds
          Reason.synced.name s!"Applied {b.report.applied} changes" ctx.now) b.features
          (b.desired ctx m) b.health)
        (b.desired ctx m) none := by
  simp only [verdict, status, result, signals, h, syncedSignal, hempty, Bool.false_eq_true,
    if_false]
  rfl

end Behaviour

end Steward.Reconcile
