import Steward.Controller
import Steward.Program
import Steward.Registry
import Steward.Settings.Basic
import Steward.Text.Quoted

/-!
# The application

The application owns the connection to the store and the controller.  Starting it sets up one after
the other, and what was set up before a step failed is left for stopping to take down.

This is `Application` of the program, with `initialize`, `start` and `stop`.
-/

namespace Steward

/-- The application. -/
structure Application where
  settings : Settings
  /-- There is a store to be closed. -/
  stored : Bool := false
  controller : Option Controller := none
  running : Bool := false
  deriving DecidableEq, Repr

namespace Application

/-! ## 1. What the application asks -/

inductive Request where
  | makeStore (settings : Settings.Database)
  | connect
  | prepareSchema
  | dueResources (limit : Int)
  | listAggregators
  | close
  deriving DecidableEq, Repr

/-- Why the application does not start. -/
inductive Error where
  | unknownLevel (level : String)
  | negativeSlots
  /-- What the store raises on its own account. -/
  | raised (kind text : String)
  deriving DecidableEq, Repr

/-- The text of the error. -/
def Error.message : Error → String
  | .unknownLevel level => "Unknown level: " ++ Text.quoted level
  | .negativeSlots => "Semaphore initial value must be >= 0"
  | .raised _ text => text

@[reducible]
def Request.Reply : Request → Type
  | .dueResources _ | .listAggregators => Except Error (List Resource)
  | _ => Except Error Unit

@[reducible]
def signature : Signature := ⟨Request, Request.Reply⟩

/-- A part of the application's life; what was set up is kept also where it fails. -/
abbrev Life (α : Type) := ExceptT Error (StateT Application (Program signature)) α

/-- Ask, and go on with the reply. -/
def ask (r : Request) : Life (Request.Reply r) :=
  ExceptT.mk fun app => .ask r fun reply => .done (.ok reply, app)

/-- Go on with a value, or fail. -/
def settle {α : Type} (r : Except Error α) : Life α := ExceptT.mk fun app => .done (r, app)

/-! ## 2. Setting up -/

/-- The names of log levels. -/
def levels : List String :=
  ["CRITICAL", "FATAL", "ERROR", "WARN", "WARNING", "INFO", "DEBUG", "NOTSET"]

/-- A controller that is set up; the number of passes at one time cannot be negative. -/
def newController (settings : Settings.Controller) : Except Error Controller :=
  if settings.maxConcurrentReconciles < 0 then .error .negativeSlots else .ok { settings }

/-- Set up the store and the controller. -/
def setUp : Life Unit := do
  let app ← get
  if !levels.contains app.settings.logging.level then
    throw (.unknownLevel app.settings.logging.level)
  settle (← ask (.makeStore app.settings.database))
  set { app with stored := true }
  settle (← ask .connect)
  settle (← ask .prepareSchema)
  let controller ← settle (newController app.settings.controller)
  set { app with stored := true, controller := some controller }

/-! ## 3. Running -/

/-- One round of the reconciliation loop; a failure is left to the next round. -/
def dispatchRound (c : Controller) : Life Controller := do
  match ← ask (.dueResources c.settings.batchSize) with
  | .ok batch => return (c.dispatch batch).2
  | .error _ => return c

/-- One round of the coordination loop; a failure is left to the next round. -/
def coordinationRound (c : Controller) : Life Controller := do
  match ← ask .listAggregators with
  | .ok aggregators => return c.triggerAll aggregators
  | .error _ => return c

/-- Start: set up what is missing, and go once through both loops. -/
def start : Life Unit := do
  if (← get).controller.isNone then setUp
  match (← get).controller with
  | none => return ()
  | some c =>
    let c ← coordinationRound (← dispatchRound c.start)
    set { ← get with running := true, controller := some c }

/-- Stop: end the controller, and close the store. -/
def stop : Life Unit := do
  let app ← get
  if !app.running && !app.stored then return ()
  let app := { app with running := false, controller := app.controller.map Controller.stop }
  set app
  if app.stored then
    settle (← ask .close)
    set { app with stored := false }

end Application

end Steward
