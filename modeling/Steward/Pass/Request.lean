import Steward.Change
import Steward.Compile.Basic
import Steward.Event
import Steward.Failure
import Steward.Program

/-!
# What a pass asks

The requests that passes make: to the store of resources and secrets, to the adapter of a service,
to an aggregator over HTTP, and to the recorder of events.  Every request may fail, save for
recording an event.

A pass is a program over these requests.  It may fail, and it keeps the secrets that it has read.

These are the calls that `ConfigReconciler`, `RegistrationCoordinator` and `SecretResolver` await:
of the store, of the `AdapterRegistry` and its `Adapter`, of `ProwlarrClient._request`.
-/

namespace Steward

/-- A request to an aggregator. -/
structure HttpRequest where
  method : String
  url : String
  apiKey : String
  payload : Option Json
  verify : Bool
  timeout : Int
  deriving DecidableEq, Repr

/-- A request as it is sent. -/
def HttpRequest.toJson (r : HttpRequest) : Json :=
  .object [("method", .string r.method), ("url", .string r.url),
    ("headers", .object [("X-Api-Key", .string r.apiKey),
      ("Content-Type", .string "application/json"), ("Accept", .string "application/json")]),
    ("json", r.payload.getD .null), ("ssl", .bool r.verify), ("timeout", .int r.timeout)]

structure HttpResponse where
  status : Int
  body : String
  deriving DecidableEq, Repr

/-- The extensions that an adapter has. -/
structure AdapterFeatures where
  directApply : Bool
  health : Bool
  deriving DecidableEq, Repr

namespace Pass

/-- The requests of passes. -/
inductive Request where
  | getResource (kind ns name : String)
  | listResources (kind : String) (ns : String)
  | getSecret (ns name : String)
  | updateStatus (resource : Resource) (status : Json.Members)
  | addFinalizer (resource : Resource) (finalizer : String)
  | removeFinalizer (resource : Resource) (finalizer : String)
  | http (request : HttpRequest)
  | findAdapter (service : String)
  | connect (service : String) (connection : State.Connection)
  | discover (service : String) (connection : State.Connection)
  | currentState (service : String) (connection : State.Connection)
  | diff (service : String) (observed : Option ServiceState) (desired : ServiceState)
      (caps : Capabilities)
  | apply (service : String) (connection : State.Connection) (changes : ChangeSet)
  | applyDirect (service : String) (connection : State.Connection) (desired : ServiceState)
  | health (service : String) (connection : State.Connection)
  | record (event : Event)
  deriving DecidableEq, Repr

/-- What is replied. -/
@[reducible]
def Request.Reply : Request → Type
  | .getResource .. => Except Failure (Option Resource)
  | .listResources .. => Except Failure (List Resource)
  | .getSecret .. => Except Failure (Option SecretData)
  | .updateStatus .. => Except Failure Resource
  | .addFinalizer .. => Except Failure Resource
  | .removeFinalizer .. => Except Failure (Option Resource)
  | .http .. => Except Failure HttpResponse
  | .findAdapter .. => Except Failure (Option AdapterFeatures)
  | .connect .. => Except Failure String
  | .discover .. => Except Failure Capabilities
  | .currentState .. => Except Failure (Option ServiceState)
  | .diff .. => Except Failure ChangeSet
  | .apply .. => Except Failure ApplyReport
  | .applyDirect .. => Except Failure ApplyReport
  | .health .. => Except Failure ServiceHealth
  | .record .. => Unit

/-- The signature of passes. -/
@[reducible]
def signature : Signature := ⟨Request, Request.Reply⟩

/-- Secrets that a pass has read, by namespace and name. -/
abbrev Cache := Table SecretData

end Pass

/-- A pass that may fail, with the secrets it has read. -/
abbrev Pass (α : Type) := ExceptT Failure (StateT Pass.Cache (Program Pass.signature)) α

namespace Pass

variable {α : Type}

/-- Ask, and go on with the reply. -/
def ask (r : Request) : Pass r.Reply :=
  ExceptT.mk fun cache => .ask r fun reply => .done (.ok reply, cache)

/-- Go on with a value, or fail. -/
def settle (r : Except Failure α) : Pass α := ExceptT.mk fun cache => .done (r, cache)

/-- Go on with the outcome of a pass, whether it failed or not. -/
def attempt (p : Pass α) : Pass (Except Failure α) :=
  ExceptT.mk fun cache => do
    let (r, cache) ← p.run cache
    return (.ok r, cache)

/-- The secrets read so far. -/
def cache : Pass Cache := ExceptT.mk fun cache => .done (.ok cache, cache)

/-- Keep a secret that was read. -/
def remember (key : String) (data : SecretData) : Pass Unit :=
  ExceptT.mk fun cache => .done (.ok (), Table.set cache key data)

/-- The program of a pass that begins without secrets. -/
def program (p : Pass α) : Program signature (Except Failure α) := do
  let (r, _) ← p.run []
  return r

/-! ## Requests by name -/

def getResource (kind ns name : String) : Pass (Option Resource) := do
  settle (← ask (.getResource kind ns name))

def listResources (kind ns : String) : Pass (List Resource) := do
  settle (← ask (.listResources kind ns))

def getSecret (ns name : String) : Pass (Option SecretData) := do
  settle (← ask (.getSecret ns name))

def updateStatus (resource : Resource) (status : Json.Members) : Pass Resource := do
  settle (← ask (.updateStatus resource status))

def addFinalizer (resource : Resource) (finalizer : String) : Pass Resource := do
  settle (← ask (.addFinalizer resource finalizer))

def removeFinalizer (resource : Resource) (finalizer : String) : Pass (Option Resource) := do
  settle (← ask (.removeFinalizer resource finalizer))

def http (request : HttpRequest) : Pass HttpResponse := do
  settle (← ask (.http request))

/-- Look up the adapter of a service; nothing if none is registered. -/
def findAdapter (service : String) : Pass (Option AdapterFeatures) := do
  settle (← ask (.findAdapter service))

def record (event : Event) : Pass Unit := ask (.record event)

end Pass

end Steward
