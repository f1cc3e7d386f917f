import Steward.Diff
import Steward.Pass.Request
import Steward.State.Document

/-!
# Simulated adapters

An adapter that answers as it is told and talks to no service.  Unless it is told otherwise it finds
an empty service, computes real change sets, and applies everything without fail.

This is `MockAdapter`, with `UnreachableAdapter`.
-/

namespace Steward.Simulation

/-- What an adapter is called for. -/
inductive AdapterMethod where
  | connect
  | discover
  | currentState
  | diff
  | apply
  | applyDirect
  | health
  deriving DecidableEq, Repr

namespace AdapterMethod

def all : List AdapterMethod :=
  [.connect, .discover, .currentState, .diff, .apply, .applyDirect, .health]

def name : AdapterMethod → String
  | .connect => "connect"
  | .discover => "discover"
  | .currentState => "current_state"
  | .diff => "diff"
  | .apply => "apply"
  | .applyDirect => "apply_direct"
  | .health => "get_health"

/-- The method of a name. -/
def ofName? (name : String) : Option AdapterMethod := all.find? (·.name == name)

end AdapterMethod

/-- A call of an adapter, with what is worth knowing about it. -/
structure AdapterCall where
  service : String
  method : AdapterMethod
  details : Json.Members := []
  deriving DecidableEq, Repr

/-- An adapter that answers as it is told. -/
structure Adapter where
  service : String
  /-- Settings can be applied directly, and there is a health report. -/
  extended : Bool := true
  version : String := "1.0.0-mock"
  capabilities : Capabilities := { resolutions := ["2160p", "1080p", "720p", "480p"] }
  state : Option ServiceState
  /-- The answer to a diff, where it is not computed. -/
  changeSet : Option ChangeSet := none
  /-- The answer to a change set, where it is not a full success. -/
  applyReport : Option ApplyReport := none
  directReport : Option ApplyReport := none
  /-- What is applied directly is counted, whatever the adapter is told to answer. -/
  countsDirect : Bool := false
  health : ServiceHealth := {}
  /-- Methods that fail. -/
  errors : List (AdapterMethod × Failure) := []
  deriving DecidableEq, Repr

namespace Adapter

/-- An adapter of an empty service. -/
def empty (service : String) : Adapter := { service, state := some { app := service } }

/-- An adapter without the extensions. -/
def plain (service : String) : Adapter := { empty service with extended := false }

/-- An adapter whose service never answers. -/
def unreachable (service : String) : Adapter :=
  { empty service with
    countsDirect := true
    errors := [(.connect, .raised "AdapterError" "connection refused")] }

def features (a : Adapter) : AdapterFeatures := ⟨a.extended, a.extended⟩

/-- A method fails from now on, or fails no longer. -/
def setError (a : Adapter) (method : AdapterMethod) (error : Option Failure) : Adapter :=
  { a with errors := a.errors.filter (fun e => e.1 != method) ++
      error.toList.map fun e => (method, e) }

/-- The answer of a method, unless it fails. -/
def answer {α : Type} (a : Adapter) (method : AdapterMethod) (value : α) : Except Failure α :=
  match a.errors.lookup method with
  | some e => .error e
  | none => .ok value

/-- The change set that is answered. -/
def changes (a : Adapter) (observed : Option ServiceState) (desired : ServiceState)
    (caps : Capabilities) : ChangeSet :=
  a.changeSet.getD (Steward.diff observed desired caps)

/-- The result of applying a change set. -/
def applied (a : Adapter) (c : ChangeSet) : ApplyReport :=
  a.applyReport.getD { applied := c.size }

/-- The result of applying settings directly: each import list counts, and each whole section. -/
def appliedDirectly (a : Adapter) (desired : ServiceState) : ApplyReport :=
  let counted : ApplyReport :=
    { applied := desired.importLists.length + desired.mediaManagement.toList.length +
        desired.authentication.toList.length }
  if a.countsDirect then counted else a.directReport.getD counted

/-- The settings that are applied directly. -/
def directSettings (desired : ServiceState) : Json :=
  .object [("import_lists", State.ImportList.codec.list.write desired.importLists),
    ("media_management", State.mediaManagementCodec.nullable.write desired.mediaManagement),
    ("authentication", State.Authentication.codec.nullable.write desired.authentication)]

end Adapter

end Steward.Simulation
