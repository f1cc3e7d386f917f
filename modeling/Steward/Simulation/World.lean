import Steward.Controller
import Steward.Registry
import Steward.Simulation.Adapter
import Steward.Simulation.Fault
import Steward.Simulation.Server

/-!
# A simulated world

All that passes work with, in one value: the store in memory with its faults, the adapters, the
aggregators, the recorder of events and the clock.  `Simulation.world` answers the requests of a
pass, and keeps a journal of what is worth knowing about them.
-/

namespace Steward

/-- A simulated world. -/
structure Simulation where
  store : MemoryStore := {}
  faults : List Simulation.Fault := []
  adapters : Registry Simulation.Adapter := []
  servers : List Simulation.Server := []
  recorder : Recorder := {}
  /-- Microseconds since 1970. -/
  clock : Int := 0
  /-- The delay of the last pass that was scheduled for a resource. -/
  schedule : Table (Option Int) := []
  /-- The journal: events, calls of adapters, requests to aggregators and secrets asked for. -/
  events : List Event := []
  calls : List Simulation.AdapterCall := []
  requests : List HttpRequest := []
  secretReads : List String := []

namespace Simulation

variable {α : Type}

/-- The reading of the clock. -/
def now (s : Simulation) : Timestamp :=
  Timestamp.ofUnix (Int.fdiv s.clock 1000000) (Int.fmod s.clock 1000000).toNat

/-! ## 1. The store -/

/-- Let a fault strike before a call. -/
def disturb (s : Simulation) (method : StoreMethod) (name : Option String) :
    Except Failure Unit × Simulation :=
  match takeFault method name s.faults with
  | none => (.ok (), s)
  | some (f, faults) =>
    let (outcome, store) := f.strike name s.store
    (outcome, { s with faults, store })

/-- A call of the store that a fault may strike. -/
def call (s : Simulation) (method : StoreMethod) (name : Option String)
    (run : MemoryStore → Except Failure α × MemoryStore) : Except Failure α × Simulation :=
  match s.disturb method name with
  | (.error e, s) => (.error e, s)
  | (.ok _, s) =>
    let (outcome, store) := run s.store
    (outcome, { s with store })

/-- A call of the store that changes nothing of its own. -/
def look (s : Simulation) (method : StoreMethod) (name : Option String) (run : MemoryStore → α) :
    Except Failure α × Simulation :=
  s.call method name fun store => (.ok (run store), store)

/-- The first resources, up to a limit; a negative limit leaves out as many at the end. -/
def upTo (limit : Int) (rs : List Resource) : List Resource :=
  if limit < 0 then rs.take (rs.length - limit.natAbs) else rs.take limit.toNat

/-- The resources whose pass is due: all of them, in the order of their creation. -/
def dueResources (s : Simulation) (limit : Int) : Except Failure (List Resource) × Simulation :=
  s.look .dueResources none fun store => upTo limit store.resources

/-- The resources of a kind, in all namespaces unless one is given. -/
def listResources (s : Simulation) (kind : String) (ns : Option String) :
    Except Failure (List Resource) × Simulation :=
  s.look .listResources (some kind) fun store => store.list kind ns

/-- Schedule the next pass over a resource; it does not matter whether that fails. -/
def scheduleNext (s : Simulation) (r : Resource) (delay : Option Int) : Simulation :=
  match s.disturb .schedule (some r.name) with
  | (.error _, s) => s
  | (.ok _, s) => { s with schedule := Table.set s.schedule r.key delay }

/-! ## 2. Adapters -/

/-- A call of the adapter of a service. -/
def callAdapter (s : Simulation) (service : String) (method : AdapterMethod)
    (details : Json.Members) (value : Adapter → α) : Except Failure α × Simulation :=
  match Table.get? s.adapters service with
  | none => (.error (.raised "LookupError" (Registry.notRegistered service)), s)
  | some a =>
    (a.answer method (value a), { s with calls := s.calls ++ [⟨a.service, method, details⟩] })

/-! ## 3. The world -/

/-- Record an event. -/
def record (s : Simulation) (e : Event) : Simulation :=
  { s with recorder := s.recorder.record e, events := s.events ++ [e] }

/-- Answer a request of a pass. -/
def answer (s : Simulation) : (r : Pass.Request) → r.Reply × Simulation
  | .getResource kind ns name =>
    s.look .getResource (some name) fun store => store.find? kind ns name
  | .listResources kind ns => s.listResources kind (some ns)
  | .getSecret ns name =>
    { s with secretReads := s.secretReads ++ [ns ++ "/" ++ name] }.look .getSecret (some name)
      fun store => store.secret? ns name
  | .updateStatus r status =>
    s.call .updateStatus (some r.name) fun store => store.updateStatus r status
  | .addFinalizer r finalizer =>
    s.call .addFinalizer (some r.name) fun store => store.addFinalizer r finalizer
  | .removeFinalizer r finalizer =>
    s.call .removeFinalizer (some r.name) fun store => store.removeFinalizer r finalizer
  | .http request =>
    let (outcome, servers) := exchange s.servers request
    (outcome, { s with servers, requests := s.requests ++ [request] })
  | .findAdapter service => (.ok ((Table.get? s.adapters service).map Adapter.features), s)
  | .connect service conn =>
    s.callAdapter service .connect [("conn", State.Connection.codec.write conn)] (·.version)
  | .discover service _ => s.callAdapter service .discover [] (·.capabilities)
  | .currentState service _ => s.callAdapter service .currentState [] (·.state)
  | .diff service observed desired caps =>
    s.callAdapter service .diff [] (·.changes observed desired caps)
  | .apply service _ changes =>
    s.callAdapter service .apply [("changes", ChangeSet.codec.write changes)] (·.applied changes)
  | .applyDirect service _ desired =>
    s.callAdapter service .applyDirect [("direct", Adapter.directSettings desired)]
      (·.appliedDirectly desired)
  | .health service _ => s.callAdapter service .health [] (·.health)
  | .record event => ((), s.record event)

/-- The world of a simulation. -/
def world : Program.World Pass.signature Simulation := fun r s => s.answer r

/-- Run a pass that begins without secrets. -/
def run (s : Simulation) (p : Pass α) : Except Failure α × Simulation := p.program.run world s

/-- Run a pass with the secrets that were read before, and keep those that it has read. -/
def runWith (s : Simulation) (cache : Pass.Cache) (p : Pass α) :
    (Except Failure α × Pass.Cache) × Simulation :=
  Program.run world (p.run cache) s

end Simulation

end Steward
