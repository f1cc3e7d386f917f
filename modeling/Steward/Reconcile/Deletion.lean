import Steward.Aggregator.Client
import Steward.Reconcile.Basic

/-!
# Reconciling: deletion

A resource that is being deleted is unregistered from its aggregator, and what the controller
manages on its service is removed.  All of this is best effort; then the finalizer is released.

This is `ConfigReconciler._reconcile_delete`, with `_unregister_pull` and `_cleanup`.
-/

namespace Steward.Reconcile

/-- Remove the registration of a service from the aggregator it refers to. -/
def unregisterFrom (ctx : Context) (m : Managed) (aggregator : String) : Pass Unit := do
  let name := Registration.pullName ctx.settings.registrationPrefix m.name m.service
  match ← Pass.getResource Kind.aggregatorName m.ns aggregator with
  | none => return ()
  | some resource =>
    let target ← Pass.settle ((Managed.ofResource resource).mapError .managed)
    let client ← AggregatorClient.forManaged target ctx.settings.httpTimeout
    if ← client.unregister name then
      Pass.record (.normal m.resource "Unregistered"
        ("Unregistered " ++ name ++ " from " ++ aggregator))

/-- Unregister, whatever comes of it (`_unregister_pull`). -/
def unregister (ctx : Context) (m : Managed) : Pass Unit := do
  if m.declared.registers then
    match m.declared.aggregatorRef with
    | some ref => let _ ← Pass.attempt (unregisterFrom ctx m ref.name)
    | none => return ()

/-- Remove what the controller manages on the service (`_cleanup`).  Capabilities that cannot be
discovered are taken to be all there are. -/
def clearService (m : Managed) (conn : State.Connection) : Pass Unit := do
  match ← Pass.findAdapter m.service with
  | none => return ()
  | some _ =>
    match ← Pass.settle (← Pass.ask (.currentState m.service conn)) with
    | none => return ()
    | some observed =>
      let caps : Capabilities := match ← Pass.ask (.discover m.service conn) with
        | .ok caps => caps
        | .error _ => {}
      let changes ←
        Pass.settle (← Pass.ask (.diff m.service (some observed) { app := m.service } caps))
      if !changes.isEmpty then
        let _ ← Pass.settle (← Pass.ask (.apply m.service conn changes))

/-- A pass over a resource that is being deleted (`_reconcile_delete`). -/
def reconcileDeleted (ctx : Context) (m : Managed) : Pass Reconciliation := do
  if !m.resource.hasFinalizer m.finalizer then
    return { success := true, message := "Awaiting removal" }
  unregister ctx m
  match ← Pass.attempt (Secret.resolveConnection m.ns m.connection) with
  | .error (.secret _) => pure ()
  | .error e => throw e
  | .ok secrets =>
    match ← Pass.attempt (clearService m (Compile.connection m secrets)) with
    | .ok _ => pure ()
    | .error e => Pass.record (.warning m.resource "CleanupFailed" e.message)
  let _ ← Pass.removeFinalizer m.resource m.finalizer
  Pass.record (.normal m.resource "Deleted" ("Removed " ++ m.finalizer))
  return { success := true, message := "Finalizer removed" }

end Steward.Reconcile
