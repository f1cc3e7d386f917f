import Steward.Coordinate
import Steward.Reconcile.Lifecycle
import Steward.Simulation.World

/-!
# Running the controller in a simulated world

The tasks of a controller are run round by round.  In a round all tasks that wait begin; then the
reconciliation passes run one after the other, then their successors are scheduled and the
coordinations they ask for are queued; last the coordination passes run.  A coordination that is
tried again later falls asleep and stays so until it is woken.
-/

namespace Steward

/-- A simulated world with its controller. -/
structure Trial extends Simulation where
  controller : Controller := {}

namespace Trial

def world (t : Trial) : Simulation := t.toSimulation

/-- The same controller in another world. -/
def inWorld (t : Trial) (s : Simulation) : Trial := { t with toSimulation := s }

/-- Let the controller take a step. -/
def advance (t : Trial) (step : Controller.Step) : Trial :=
  { t with controller := t.controller.step step }

/-! ## 1. Passes -/

/-- How a resource is compiled: whatever is wrong with a URL fails the compilation. -/
def compiler (settings : Settings.Controller) (m : Managed) (secrets : SecretMap)
    (caps : Capabilities) : Except Failure ServiceState :=
  (compile settings.registrationPrefix m secrets caps).mapError .compile

def reconcileContext (t : Trial) : Reconcile.Context :=
  ⟨t.controller.settings, compiler t.controller.settings, t.now⟩

def coordinateContext (t : Trial) : Coordinate.Context := ⟨t.controller.settings, t.now⟩

/-- Run a pass. -/
def pass {α : Type} (t : Trial) (p : Pass α) : Except Failure α × Trial :=
  let (outcome, s) := t.world.run p
  (outcome, t.inWorld s)

/-- Run the pass of a task.  No time passes in it, so that its deadline is missed only where there
is no time at all; then the pass does not begin. -/
def taskPass {α : Type} (t : Trial) (p : Pass α) : Except Failure α × Trial :=
  if 0 < t.controller.settings.reconcileTimeout then t.pass p else (.error (.timeout ""), t)

/-! ## 2. Tasks -/

/-- The numbers of the tasks that are chosen, oldest first. -/
def tasksWhere (t : Trial) (p : ControllerTask → Bool) : List Nat :=
  (t.controller.tasks.filter fun e => p e.2).map Prod.fst

def isWaiting : ControllerTask → Bool
  | .reconcile _ .waiting => true
  | .coordination _ _ (.waiting _) => true
  | _ => false

def isReconciling : ControllerTask → Bool
  | .reconcile _ .running => true
  | _ => false

def isScheduling : ControllerTask → Bool
  | .reconcile _ (.scheduling _) => true
  | _ => false

def isCoordinating : ControllerTask → Bool
  | .coordination _ _ .running => true
  | _ => false

def isAsleep : ControllerTask → Bool
  | .coordination _ _ (.asleep _) => true
  | _ => false

/-- All waiting tasks begin. -/
def beginAll (t : Trial) : Trial :=
  (t.tasksWhere isWaiting).foldl (fun t id => t.advance (.begin id)) t

/-- Run the pass of a reconciliation task. -/
def reconcileTask (t : Trial) (id : Nat) : Trial :=
  match t.controller.task? id with
  | some (.reconcile r .running) =>
    let (outcome, t) := t.taskPass (Reconcile.reconcile t.reconcileContext r)
    t.advance (.reconciled id outcome)
  | _ => t

/-- Schedule the pass after that of a reconciliation task. -/
def scheduleTask (t : Trial) (id : Nat) : Trial :=
  match t.controller.task? id with
  | some (.reconcile r (.scheduling result)) =>
    (t.inWorld (t.world.scheduleNext r result.requeueAfter)).advance (.scheduled id)
  | _ => t

/-- Run the pass of a coordination task. -/
def coordinateTask (t : Trial) (id : Nat) : Trial :=
  match t.controller.task? id with
  | some (.coordination ns name .running) =>
    let (outcome, t) := t.taskPass (coordinateNamed t.coordinateContext ns name)
    t.advance (.coordinated id outcome)
  | _ => t

/-- Run all reconciliation passes, and schedule their successors. -/
def reconcileAll (t : Trial) : Trial :=
  let t := t.beginAll
  let t := (t.tasksWhere isReconciling).foldl reconcileTask t
  (t.tasksWhere isScheduling).foldl scheduleTask t

/-- Run all coordination passes; those that are to be tried again fall asleep. -/
def coordinateAll (t : Trial) : Trial :=
  let t := t.beginAll
  ((t.tasksWhere isCoordinating).foldl coordinateTask t).beginAll

/-- Run a round. -/
def round (t : Trial) : Trial := t.reconcileAll.coordinateAll

/-- The delays of the coordinations that are asleep. -/
def delays (t : Trial) : List Int :=
  t.controller.tasks.filterMap fun
    | (_, .coordination _ _ (.asleep delay)) => some delay
    | _ => none

/-! ## 3. What the loops do -/

/-- Dispatch what is due, a number of times, and count what was started each time. -/
def dispatches : Nat → Trial → Except Failure (List Nat) × Trial
  | 0, t => (.ok [], t)
  | n + 1, t =>
    match t.world.dueResources t.controller.settings.batchSize with
    | (.error e, s) => (.error e, t.inWorld s)
    | (.ok batch, s) =>
      let (started, _) := t.controller.dispatch batch
      let (rest, t) := dispatches n ((t.inWorld s).advance (.dispatch batch))
      (rest.map (started :: ·), t)

/-- Dispatch what is due, and run a round. -/
def dispatch (t : Trial) (times : Nat) : Except Failure (List Nat) × Trial :=
  let (started, t) := dispatches times t
  (started, t.round)

/-- The controller runs, or does not. -/
def setRunning (t : Trial) (running : Bool) : Trial :=
  { t with controller := { t.controller with running } }

/-- One round of the reconciliation loop; a failure is left to the next round. -/
def poll (t : Trial) : Trial := ((t.advance .start).dispatch 1).2.setRunning false

/-- One round of the coordination loop; a failure is left to the next round. -/
def sweep (t : Trial) : Trial :=
  let t := t.advance .start
  match t.world.listResources Kind.aggregatorName none with
  | (.error _, s) => (t.inWorld s).round.setRunning false
  | (.ok aggregators, s) =>
    ((t.inWorld s).advance (.sweep aggregators)).round.setRunning false

/-- Queue the coordination of an aggregator a number of times, and run a round. -/
def trigger (t : Trial) (ns name : String) : Nat → Trial
  | 0 => t.round
  | n + 1 => (t.advance (.trigger ns name)).trigger ns name n

/-- Wake what is asleep, in a controller that runs or does not, and run the passes. -/
def wake (t : Trial) (running : Bool) : Trial :=
  let t := t.setRunning running
  ((t.tasksWhere isAsleep).foldl (fun t id => t.advance (.wake id)) t).coordinateAll

def stop (t : Trial) : Trial := t.advance .stop

/-- Run a task for one resource outside the loops, with the result of its pass. -/
def reconcileOne (t : Trial) (r : Resource) : Reconciliation × Trial :=
  let id := t.controller.spawned
  let t := { t with controller := t.controller.spawn (.reconcile r .waiting) }
  let t := (t.advance (.begin id)).reconcileTask id
  let result := match t.controller.task? id with
    | some (.reconcile _ (.scheduling result)) => result
    | _ => {}
  (result, (t.scheduleTask id).coordinateAll)

end Trial

end Steward
