import Steward.Kind
import Steward.Resource
import Steward.Spec.Aggregator
import Steward.Spec.Manager
import Steward.Status.Basic

/-!
# Managed resources

A resource as a pass works on it: its specification read in the shape of its kind, and a working
copy of its status.  Sections that the kind does not have read as empty.

A managed resource is a `ConfigObject`, an `ArrConfig` of a manager or a `ProwlarrConfig` of an
aggregator; it is read by `wrap`.
-/

namespace Steward

variable [Validator]

/-- A specification in the shape of its kind. -/
inductive Declared where
  | manager (kind : ManagerKind) (spec : Spec.Manager)
  | aggregator (spec : Spec.Aggregator)
  deriving DecidableEq, Repr

/-- Why a resource cannot be worked on. -/
inductive ManagedError where
  | unknownKind (kind : String)
  | misfit (misfit : Misfit)
  /-- A duration in the specification has no bounds. -/
  | unbounded
  deriving DecidableEq, Repr

/-- The text of the error. -/
def ManagedError.message : ManagedError → String
  | .unknownKind kind => "Unknown config kind: " ++ kind
  | .misfit m => m.message
  | .unbounded => ReadError.unbounded.message

/-- A part of a resource could not be read. -/
def ManagedError.ofRead : ReadError → ManagedError
  | .misfit m => .misfit m
  | .unbounded => .unbounded

/-- A resource with its specification and status read (`ConfigObject`). -/
structure Managed where
  resource : Resource
  declared : Declared
  status : Status
  deriving DecidableEq, Repr

namespace Declared

/-- Read the specification of a kind. -/
def read (kind : Kind) (spec : Json.Members) : Except ReadError Declared :=
  match kind with
  | .manager m => ((Spec.Manager.block.read spec).map (.manager m)).toExcept "ArrConfigSpec"
  | .aggregator =>
    ((Spec.Aggregator.block.read spec).map .aggregator).toExcept "ProwlarrConfigSpec"

/-- The specification as it is stored. -/
def toMembers : Declared → Json.Members
  | .manager _ s => Spec.Manager.block.write s
  | .aggregator s => Spec.Aggregator.block.write s

/-- The specification as it is stored, if it can be. -/
def document : Declared → Except WriteError Json.Members
  | .manager _ s => Spec.Manager.block.document s
  | .aggregator s => Spec.Aggregator.block.document s

def kind : Declared → Kind
  | .manager m _ => .manager m
  | .aggregator _ => .aggregator

def connection : Declared → Spec.Connection
  | .manager _ s => s.connection
  | .aggregator s => s.connection

def tuning : Declared → Option Spec.Tuning
  | .manager _ s => s.tuning
  | .aggregator s => s.tuning

def downloadClients : Declared → List Spec.DownloadClient
  | .manager _ s => s.downloadClients
  | .aggregator s => s.downloadClients

def indexers : Declared → Option Spec.Indexers
  | .manager _ s => s.indexers
  | .aggregator _ => none

def directIndexers (d : Declared) : List Spec.DirectIndexer :=
  match d.indexers with
  | some i => i.direct
  | none => []

/-- The aggregator that the service takes its indexers from (`prowlarr_ref`). -/
def aggregatorRef (d : Declared) : Option Spec.AggregatorRef :=
  match d.indexers with
  | some i => i.aggregatorRef
  | none => none

def importLists : Declared → List Spec.ImportList
  | .manager _ s => s.importLists
  | .aggregator _ => []

def authentication : Declared → Option Spec.Authentication
  | .manager _ s => s.authentication
  | .aggregator _ => none

def mediaManagement : Declared → Option Spec.MediaManagement
  | .manager _ s => s.mediaManagement
  | .aggregator _ => none

def aggregatorIndexers : Declared → List Spec.AggregatorIndexer
  | .manager _ _ => []
  | .aggregator s => s.indexers

def proxies : Declared → List Spec.Proxy
  | .manager _ _ => []
  | .aggregator s => s.proxies

def applications : Declared → List Spec.Application
  | .manager _ _ => []
  | .aggregator s => s.applications

/-- Services of the kind are registered with the aggregator that they refer to
(`should_register_with_prowlarr`). -/
def registers : Declared → Bool
  | .manager _ _ => true
  | .aggregator _ => false

end Declared

namespace Managed

/-- Read a resource: its specification first, then its status (`wrap`). -/
def ofResource (r : Resource) : Except ManagedError Managed :=
  match Kind.ofName? r.kind with
  | none => .error (.unknownKind r.kind)
  | some kind => do
    let declared ← (Declared.read kind r.spec).mapError .ofRead
    let status ← (Status.ofMembers r.status).mapError .ofRead
    return { resource := r, declared, status }

/-- The type of service. -/
def service (m : Managed) : String := m.declared.kind.service

def name (m : Managed) : String := m.resource.name

def ns (m : Managed) : String := m.resource.ns

/-- The finalizer that the controller puts on resources of the kind (`finalizer_name`). -/
def finalizer (m : Managed) : String := finalizerFor m.declared.kind.name

def connection (m : Managed) : Spec.Connection := m.declared.connection

/-- The resource is to be left alone. -/
def suspended (m : Managed) : Bool :=
  match m.declared.tuning with
  | some t => t.suspend
  | none => false

/-- Seconds between passes, where the resource sets its own (`requeue_interval`). -/
def interval (m : Managed) : Option Nat :=
  match m.declared.tuning with
  | some t => t.interval
  | none => none

/-- Set a condition of the working status (`_set`). -/
def withCondition (m : Managed) (type status reason message : String) (now : Timestamp) : Managed :=
  { m with status := { m.status with
      conditions := m.status.conditions.set type status reason message
        (some m.resource.generation) now } }

end Managed

end Steward
