import Steward.Secret.Resolution
import Steward.Settings.Basic

/-!
# Reconciling: results and reasons

A reconciliation pass drives one resource one step through its life: without a finalizer it is new,
with one it is active, with its deletion requested it is being deleted, and it is gone once its
finalizer is.  Failures become conditions before the pass ends; nothing is retried here, the result
says when to run again.

This is `ReconcileResult`, with `_not_ready`, `_persist` and the reasons of conditions.
-/

namespace Steward

/-- What came of a reconciliation pass (`ReconcileResult`). -/
structure Reconciliation where
  success : Bool := false
  message : String := ""
  /-- Seconds until the next pass: none for no further pass, 0 for at once. -/
  requeueAfter : Option Int := none
  /-- The aggregator in the same namespace that is to be coordinated next. -/
  aggregator : Option String := none
  deriving DecidableEq, Repr

def Reconciliation.toJson (r : Reconciliation) : Json :=
  .object [("success", .bool r.success), ("message", .string r.message),
    ("requeue_after", .ofInt? r.requeueAfter), ("aggregator", .ofText? r.aggregator)]

namespace Reconcile

/-- What a pass is given. -/
structure Context where
  settings : Settings.Controller
  compile : Managed → SecretMap → Capabilities → Except Failure ServiceState
  now : Timestamp

/-! ## 1. Reasons -/

/-- Reasons of conditions. -/
inductive Reason where
  | secretResolutionFailed
  | adapterNotFound
  | connectionFailed
  | connected
  | discoveryFailed
  | compilationFailed
  | stateFetchFailed
  | diffFailed
  | applyFailed
  | partiallyApplied
  | synced
  | inSync
  | ready
  | invalidSpec
  deriving DecidableEq, Repr

def Reason.name : Reason → String
  | .secretResolutionFailed => "SecretResolutionFailed"
  | .adapterNotFound => "AdapterNotFound"
  | .connectionFailed => "ConnectionFailed"
  | .connected => "Connected"
  | .discoveryFailed => "DiscoveryFailed"
  | .compilationFailed => "CompilationFailed"
  | .stateFetchFailed => "StateFetchFailed"
  | .diffFailed => "DiffFailed"
  | .applyFailed => "ApplyFailed"
  | .partiallyApplied => "PartiallyApplied"
  | .synced => "Synced"
  | .inSync => "InSync"
  | .ready => "Ready"
  | .invalidSpec => "InvalidSpec"

/-! ## 2. Outcomes -/

/-- The result of a pass that failed. -/
def Context.failed (ctx : Context) (message : String) : Reconciliation where
  success := false
  message
  requeueAfter := some ctx.settings.errorRequeueInterval

/-- What an active pass has come to before its status is written. -/
structure Verdict where
  managed : Managed
  result : Reconciliation
  deriving DecidableEq, Repr

/-- The resource is not ready, and the pass failed (`_not_ready`). -/
def Context.unready (ctx : Context) (m : Managed) (reason : Reason) (condition message : String) :
    Verdict where
  managed := m.withCondition Condition.ready Condition.fails reason.name condition ctx.now
  result := ctx.failed message

/-- Write the working status; a lost race makes the pass fail (`_persist`). -/
def saveStatus (ctx : Context) (v : Verdict) : Pass Reconciliation := do
  match ← Pass.attempt (Pass.updateStatus v.managed.resource v.managed.status.toMembers) with
  | .ok _ => return v.result
  | .error (.conflict key version) => return ctx.failed (Failure.conflict key version).message
  | .error e => throw e

end Reconcile

end Steward
