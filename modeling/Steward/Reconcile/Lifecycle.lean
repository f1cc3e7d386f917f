import Steward.Reconcile.Active
import Steward.Reconcile.Deletion

/-!
# Reconciling: the lifecycle

Which step a pass takes: a resource that cannot be read is reported, a suspended one is left alone,
one that is being deleted is cleaned up, one without a finalizer gets it, and any other goes through
an active pass.

This is `ConfigReconciler.reconcile`, with `reconcile_key` and `_reconcile_invalid`.
-/

namespace Steward.Reconcile

/-- A pass over a resource that cannot be read: it is reported as invalid, or released if it is
being deleted (`_reconcile_invalid`). -/
def reportInvalid (ctx : Context) (r : Resource) (error : ManagedError) :
    Pass Reconciliation := do
  let finalizer := finalizerFor r.kind
  if r.beingDeleted then
    if r.hasFinalizer finalizer then
      let _ ← Pass.removeFinalizer r finalizer
    return { success := true, message := "Finalizer removed" }
  let status : Status := match Status.ofMembers r.status with
    | .ok s => s
    | .error _ => {}
  let status := { status with
    conditions := status.conditions.set Condition.ready Condition.fails Reason.invalidSpec.name
      error.message (some r.generation) ctx.now }
  match ← Pass.attempt (Pass.updateStatus r status.toMembers) with
  | .ok _ => pure ()
  | .error (.conflict _ _) => pure ()
  | .error e => throw e
  return ctx.failed error.message

/-- A pass that gives a resource its finalizer. -/
def adopt (m : Managed) : Pass Reconciliation := do
  let _ ← Pass.addFinalizer m.resource m.finalizer
  Pass.record (.normal m.resource "FinalizerAdded" ("Added " ++ m.finalizer))
  return { success := true, message := "Finalizer added", requeueAfter := some 0 }

/-- One step for a resource as it was read from the store.  A duration without bounds is not
reported: it makes the pass fail. -/
def reconcile (ctx : Context) (r : Resource) : Pass Reconciliation :=
  match Managed.ofResource r with
  | .error .unbounded => throw (.managed .unbounded)
  | .error e => reportInvalid ctx r e
  | .ok m =>
    if m.suspended then
      return { success := true, message := "Reconciliation is suspended" }
    else if r.beingDeleted then reconcileDeleted ctx m
    else if !r.hasFinalizer m.finalizer then adopt m
    else reconcileActive ctx m

/-- One step for the resource that is stored under a key; one that is not there is no failure
(`reconcile_key`). -/
def reconcileNamed (ctx : Context) (kind ns name : String) : Pass Reconciliation := do
  match ← Pass.getResource kind ns name with
  | none => return { success := true, message := "Resource not found" }
  | some r => reconcile ctx r

end Steward.Reconcile
