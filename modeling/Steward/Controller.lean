import Steward.Coordinate
import Steward.Reconcile.Basic

/-!
# The controller

The controller runs reconciliation and coordination passes as tasks.  At most one reconciliation
task per resource is in flight, and at most one coordination task per aggregator waits to begin.
Every task advances in steps; between two steps of one task any other task may take steps.

A reconciliation task waits to begin, runs its pass as soon as a slot is free, schedules the next
pass and ends; where the pass says so, it triggers a coordination.  A coordination task waits,
perhaps sleeps, runs its pass and ends; where the pass had errors, it leaves another one asleep.
Stopping drops all tasks.

This is `Controller` of the program.  Its tasks are those of `_spawn`: `_reconcile_resource` and
`_run_coordination`; what is in flight is `_in_flight`, what is queued `_pending_coordination`.
-/

namespace Steward

/-- How far a reconciliation task has come. -/
inductive ReconcileStage where
  | waiting
  /-- It waits for a slot, or runs its pass in one. -/
  | running
  | scheduling (result : Reconciliation)
  deriving DecidableEq, Repr

/-- How far a coordination task has come. -/
inductive CoordinationStage where
  | waiting (delay : Int)
  | asleep (delay : Int)
  | running
  deriving DecidableEq, Repr

/-- A task of the controller. -/
inductive ControllerTask where
  | reconcile (resource : Resource) (stage : ReconcileStage)
  | coordination (ns name : String) (stage : CoordinationStage)
  deriving DecidableEq, Repr

/-- The controller. -/
structure Controller where
  settings : Settings.Controller := {}
  running : Bool := false
  /-- Keys of the resources that are being reconciled. -/
  inFlight : List String := []
  /-- Namespace and name of the aggregators whose coordination is queued. -/
  pending : List (String × String) := []
  /-- The tasks that have not ended, oldest first. -/
  tasks : List (Nat × ControllerTask) := []
  /-- The number of tasks so far. -/
  spawned : Nat := 0
  deriving DecidableEq, Repr

namespace Controller

/-! ## 1. Outcomes of passes -/

/-- The result of a pass that ended in any way. -/
def resultOf (settings : Settings.Controller) :
    Except Failure Reconciliation → Reconciliation
  | .ok r => r
  | .error (.timeout _) =>
    { message := "Reconcile timed out", requeueAfter := some settings.errorRequeueInterval }
  | .error (.conflict key version) =>
    { message := (Failure.conflict key version).message, requeueAfter := some 0 }
  | .error e => { message := e.message, requeueAfter := some settings.errorRequeueInterval }

/-- The aggregator that is to be coordinated after a pass. -/
def coordinationAfter (r : Resource) (result : Reconciliation) : Option (String × String) :=
  if !result.success then none
  else
    match result.aggregator with
    | some name =>
      if !name.isEmpty then some (r.ns, name)
      else if r.kind = Kind.aggregatorName then some (r.ns, r.name) else none
    | none => if r.kind = Kind.aggregatorName then some (r.ns, r.name) else none

/-- Seconds after which a coordination pass is tried again, if it is. -/
def retryAfter : Except Failure Coordination → Option Int
  | .ok r =>
    if r.errors.isEmpty then none
    else
      match r.requeueAfter with
      | some n => if n = 0 then none else some n
      | none => none
  | .error _ => none

/-! ## 2. Tasks -/

/-- Start a task (`_spawn`). -/
def spawn (c : Controller) (t : ControllerTask) : Controller :=
  { c with tasks := c.tasks ++ [(c.spawned, t)], spawned := c.spawned + 1 }

/-- The task of a number. -/
def task? (c : Controller) (id : Nat) : Option ControllerTask := c.tasks.lookup id

/-- Put a task in the place of the one of its number. -/
def setTask (c : Controller) (id : Nat) (t : ControllerTask) : Controller :=
  { c with tasks := c.tasks.map fun e => if e.1 = id then (id, t) else e }

/-- A task has ended. -/
def endTask (c : Controller) (id : Nat) : Controller :=
  { c with tasks := c.tasks.filter fun e => e.1 != id }

/-- A resource is no longer in flight. -/
def land (c : Controller) (key : String) : Controller :=
  { c with inFlight := c.inFlight.filter (· != key) }

/-- The coordination of an aggregator is no longer queued. -/
def unqueue (c : Controller) (key : String × String) : Controller :=
  { c with pending := c.pending.filter (· != key) }

/-- Queue the coordination of an aggregator after a delay, unless it is queued. -/
def queue (c : Controller) (ns name : String) (delay : Int) : Controller :=
  if c.pending.contains (ns, name) then c
  else
    { c with pending := c.pending ++ [(ns, name)] }.spawn (.coordination ns name (.waiting delay))

/-- Queue the coordination of an aggregator, unless it is queued (`trigger_coordination`). -/
def trigger (c : Controller) (ns name : String) : Controller := c.queue ns name 0

/-- Start a reconciliation task for a resource: it is in flight now. -/
def launch (c : Controller) (r : Resource) : Controller :=
  { c with inFlight := c.inFlight ++ [r.key] }.spawn (.reconcile r .waiting)

/-- Start a task for every resource of a batch that is not in flight, and count them
(`dispatch_due`). -/
def dispatch (c : Controller) : List Resource → Nat × Controller
  | [] => (0, c)
  | r :: rest =>
    if c.inFlight.contains r.key then c.dispatch rest
    else
      let (started, c) := (c.launch r).dispatch rest
      (started + 1, c)

/-- Queue the coordination of every aggregator. -/
def triggerAll (c : Controller) (aggregators : List Resource) : Controller :=
  aggregators.foldl (fun c r => c.trigger r.ns r.name) c

/-! ## 3. Steps -/

/-- What happens between two requests of the tasks. -/
inductive Step where
  /-- Resources whose pass is due are dispatched. -/
  | dispatch (batch : List Resource)
  | trigger (ns name : String)
  /-- The coordination of every aggregator is triggered. -/
  | sweep (aggregators : List Resource)
  /-- A waiting task begins. -/
  | begin (id : Nat)
  /-- The pass of a reconciliation task ends. -/
  | reconciled (id : Nat) (outcome : Except Failure Reconciliation)
  /-- The next pass was scheduled, or scheduling it failed. -/
  | scheduled (id : Nat)
  /-- The delay of a sleeping task is over. -/
  | wake (id : Nat)
  /-- The pass of a coordination task ends. -/
  | coordinated (id : Nat) (outcome : Except Failure Coordination)
  | start
  | stop

/-- A waiting task begins: a delayed coordination falls asleep, any other is no longer queued. -/
def begin (c : Controller) (id : Nat) : Controller :=
  match c.task? id with
  | some (.reconcile r .waiting) => c.setTask id (.reconcile r .running)
  | some (.coordination ns name (.waiting delay)) =>
    if delay = 0 then (c.unqueue (ns, name)).setTask id (.coordination ns name .running)
    else c.setTask id (.coordination ns name (.asleep delay))
  | _ => c

/-- A reconciliation pass ends, and the next one is to be scheduled. -/
def reconciled (c : Controller) (id : Nat) (outcome : Except Failure Reconciliation) :
    Controller :=
  match c.task? id with
  | some (.reconcile r .running) =>
    c.setTask id (.reconcile r (.scheduling (resultOf c.settings outcome)))
  | _ => c

/-- The next pass is scheduled: the resource is no longer in flight, and the coordination that the
result asks for is triggered. -/
def scheduled (c : Controller) (id : Nat) : Controller :=
  match c.task? id with
  | some (.reconcile r (.scheduling result)) =>
    let c := (c.land r.key).endTask id
    match coordinationAfter r result with
    | some (ns, name) => c.trigger ns name
    | none => c
  | _ => c

/-- A sleeping task wakes: it begins its pass, or ends if the controller has stopped. -/
def wake (c : Controller) (id : Nat) : Controller :=
  match c.task? id with
  | some (.coordination ns name (.asleep _)) =>
    if c.running then (c.unqueue (ns, name)).setTask id (.coordination ns name .running)
    else c.endTask id
  | _ => c

/-- A coordination pass ends; where it had errors it is queued again. -/
def coordinated (c : Controller) (id : Nat) (outcome : Except Failure Coordination) :
    Controller :=
  match c.task? id with
  | some (.coordination ns name .running) =>
    let c := c.endTask id
    match retryAfter outcome with
    | some delay => c.queue ns name delay
    | none => c
  | _ => c

/-- Begin to run. -/
def start (c : Controller) : Controller := { c with running := true }

/-- Drop a task: a reconciliation that has begun is no longer in flight; one that has not begun
never gets to say so, and neither does a coordination. -/
def drop (c : Controller) : ControllerTask → Controller
  | .reconcile _ .waiting => c
  | .reconcile r _ => c.land r.key
  | .coordination .. => c

/-- Stop: drop all tasks. -/
def stop (c : Controller) : Controller :=
  { (c.tasks.foldl (fun c t => c.drop t.2) c) with running := false, tasks := [] }

/-- One step. -/
def step (c : Controller) : Step → Controller
  | .dispatch batch => (c.dispatch batch).2
  | .trigger ns name => c.trigger ns name
  | .sweep aggregators => c.triggerAll aggregators
  | .begin id => c.begin id
  | .reconciled id outcome => c.reconciled id outcome
  | .scheduled id => c.scheduled id
  | .wake id => c.wake id
  | .coordinated id outcome => c.coordinated id outcome
  | .start => c.start
  | .stop => c.stop

end Controller

end Steward
