import Steward.Aggregator.Client
import Steward.Settings.Basic

/-!
# Coordinating registrations

A coordination pass over one aggregator looks after every acquisition manager in its namespace.
Those that refer to the aggregator are registered with it, unless the aggregator's own
specification lists them too or they do not want to be; the outcome is written into the
registration record of each.  What goes wrong while a service is looked after is collected, and the
others are looked after all the same.  One thing ends the pass for all of them: a specification in
which a duration has no bounds, since a turn is not prepared for this error (`undecided_shows`).

This is `RegistrationCoordinator._coordinate`: `kinds` is its loop over `DOWNSTREAM_KINDS`,
`service` one turn of the inner loop, and `decideOrFail` the call of `_process` in it.
-/

namespace Steward

/-- What came of a coordination pass (`CoordinationResult`). -/
structure Coordination where
  processed : Int := 0
  registered : Int := 0
  errors : List String := []
  requeueAfter : Option Int := none
  deriving DecidableEq, Repr

namespace Coordination

def success (r : Coordination) : Bool := r.errors.isEmpty

def toJson (r : Coordination) : Json :=
  .object [("processed", .int r.processed), ("registered", .int r.registered),
    ("errors", .ofTexts r.errors), ("requeue_after", .ofInt? r.requeueAfter),
    ("success", .bool r.success)]

end Coordination

namespace Coordinate

/-- What a pass is given. -/
structure Context where
  settings : Settings.Controller
  now : Timestamp

/-! ## 1. Texts -/

def refRemovedMessage : String := "ProwlarrRef removed from config"

def conflictMessage : String :=
  "Conflict: app is defined in both ProwlarrConfig.applications[] (Push) and has prowlarrRef " ++
    "(Pull). Remove from one."

def disabledMessage : String := "Auto-registration disabled (autoRegister: false)"

/-! ## 2. One service -/

/-- A service is listed by the aggregator itself, under its type and name. -/
def isPushed (aggregator m : Managed) : Bool :=
  aggregator.declared.applications.any fun a => a.type == m.service && a.name == m.name

/-- A record of a registration that was not made. -/
def notRegistered (aggregator : Managed) (message : String) : RegistrationRecord where
  aggregator := some aggregator.name
  message := some message

/-- The registration of a service with an aggregator. -/
def registrationOf (ctx : Context) (aggregator m : Managed) (apiKey : String) : Registration where
  name := Registration.pullName ctx.settings.registrationPrefix m.name m.service
  service := m.service
  baseUrl := m.connection.url
  apiKey
  aggregatorUrl := match ctx.settings.aggregatorUrlOverride with
    | some url => if url.isEmpty then aggregator.connection.url else url
    | none => aggregator.connection.url
  syncCategories := usualCategories m.service
  syncLevel := "fullSync"

/-- The registration is one that was already on record. -/
def alreadyRegistered (previous : Option RegistrationRecord) (id : Int) : Bool :=
  match previous with
  | some r => r.registered && r.applicationId == some id
  | none => false

/-- Register a service, and say what is to be recorded and what went wrong. -/
def registerService (ctx : Context) (aggregator m : Managed) (client : AggregatorClient)
    (apiKey : String) : Pass (RegistrationRecord × Option String) := do
  let registration := registrationOf ctx aggregator m apiKey
  match ← Pass.attempt (client.register registration) with
  | .error e =>
    let text := "Registration failed: " ++ e.message
    Pass.record (.warning m.resource "RegistrationFailed" text)
    return (notRegistered aggregator text, some e.message)
  | .ok id =>
    if !alreadyRegistered m.status.registration id then
      Pass.record (.normal m.resource "Registered"
        ("Registered with " ++ aggregator.name ++ " as " ++ registration.name))
    return ({ registered := true, aggregator := some aggregator.name, applicationId := some id
              lastSync := some ctx.now, message := some ("Registered as " ++ registration.name) },
            none)

/-- Decide about one service: what is to be recorded and what went wrong, or nothing if the service
does not concern the aggregator (`_process`). -/
def decide (ctx : Context) (aggregator m : Managed) (client : AggregatorClient) :
    Pass (Option (RegistrationRecord × Option String)) := do
  match m.declared.aggregatorRef with
  | none =>
    match m.status.registration with
    | some r =>
      if r.registered && r.aggregator == some aggregator.name then
        return some ({ message := some refRemovedMessage }, none)
      else return none
    | none => return none
  | some ref =>
    if ref.name != aggregator.name then return none
    else if isPushed aggregator m then
      Pass.record (.warning m.resource "RegistrationConflict" conflictMessage)
      return some (notRegistered aggregator conflictMessage,
        some ("conflict: " ++ m.service ++ "/" ++ m.name ++ " defined in both Push and Pull model"))
    else if !ref.autoRegister then return some (notRegistered aggregator disabledMessage, none)
    else
      match ← Pass.attempt (Secret.registrationKey m) with
      | .error (.secret e) =>
        return some (notRegistered aggregator ("Could not resolve API key for " ++ m.name),
          some e.message)
      | .error e => throw e
      | .ok apiKey => return some (← registerService ctx aggregator m client apiKey)

/-- Decide about one service, where anything unforeseen counts as a registration that failed. -/
def decideOrFail (ctx : Context) (aggregator m : Managed) (client : AggregatorClient) :
    Pass (Option (RegistrationRecord × Option String)) := do
  match ← Pass.attempt (decide ctx aggregator m client) with
  | .ok d => return d
  | .error e =>
    return some (notRegistered aggregator ("Registration failed: " ++ e.message), some e.message)

/-! ## 3. Records -/

/-- The status of a resource with another registration record. -/
def withRecord (m : Managed) (record : RegistrationRecord) : Json.Members :=
  { m.status with registration := some record }.toMembers

/-- Write a record, and no other part of the status (`_write_registration`).  A lost race is tried
once more on a fresh read; after a second one the record is dropped. -/
def writeRecord (m : Managed) (record : RegistrationRecord) : Pass Unit := do
  match ← Pass.attempt (Pass.updateStatus m.resource (withRecord m record)) with
  | .ok _ => return ()
  | .error (.conflict _ _) =>
    match ← Pass.getResource m.resource.kind m.resource.ns m.resource.name with
    | none => return ()
    | some fresh =>
      let m ← Pass.settle ((Managed.ofResource fresh).mapError .managed)
      match ← Pass.attempt (Pass.updateStatus fresh (withRecord m record)) with
      | .ok _ => return ()
      | .error (.conflict _ _) => return ()
      | .error e => throw e
  | .error e => throw e

/-- Count a decision. -/
def count (result : Coordination) (key : String) (record : RegistrationRecord)
    (error : Option String) : Coordination :=
  { result with
    processed := result.processed + 1
    registered := if record.registered then result.registered + 1 else result.registered
    errors := match error with
      | some e => result.errors ++ [key ++ ": " ++ e]
      | none => result.errors }

/-- Look after one resource. -/
def service (ctx : Context) (aggregator : Managed) (client : AggregatorClient)
    (result : Coordination) (r : Resource) : Pass Coordination := do
  if r.beingDeleted then return result
  match Managed.ofResource r with
  | .error .unbounded => throw (.managed .unbounded)
  | .error _ => return result
  | .ok m =>
    match ← decideOrFail ctx aggregator m client with
    | none => return result
    | some (record, error) =>
      let result := count result r.key record error
      match ← Pass.attempt (writeRecord m record) with
      | .ok _ => return result
      | .error e => return { result with errors := result.errors ++ [r.key ++ ": " ++ e.message] }

/-- Look after resources in order. -/
def services (ctx : Context) (aggregator : Managed) (client : AggregatorClient) :
    Coordination → List Resource → Pass Coordination
  | result, [] => return result
  | result, r :: rest => do
    services ctx aggregator client (← service ctx aggregator client result r) rest

/-- Look after the resources of kinds in order; a kind that cannot be listed is an error. -/
def kinds (ctx : Context) (aggregator : Managed) (client : AggregatorClient) :
    Coordination → List ManagerKind → Pass Coordination
  | result, [] => return result
  | result, k :: rest => do
    match ← Pass.attempt (Pass.listResources k.resourceKind aggregator.ns) with
    | .error e =>
      kinds ctx aggregator client { result with errors := result.errors ++ [e.message] } rest
    | .ok rs => kinds ctx aggregator client (← services ctx aggregator client result rs) rest

/-! ## 4. The pass -/

/-- A pass that came to nothing. -/
def Context.failed (ctx : Context) (message : String) : Coordination where
  errors := [message]
  requeueAfter := some ctx.settings.errorRequeueInterval

/-- Say when to coordinate again. -/
def Context.schedule (ctx : Context) (result : Coordination) : Coordination :=
  { result with requeueAfter := some <|
      if result.errors.isEmpty then ctx.settings.defaultRequeueInterval
      else ctx.settings.errorRequeueInterval }

end Coordinate

open Coordinate in
/-- A pass over an aggregator as it was read from the store (`_coordinate`). -/
def coordinate (ctx : Coordinate.Context) (r : Resource) : Pass Coordination := do
  if r.beingDeleted then return {}
  match Managed.ofResource r with
  | .error .unbounded => throw (.managed .unbounded)
  | .error e => return ctx.failed e.message
  | .ok aggregator =>
    if !aggregator.status.connected then
      return { requeueAfter := some ctx.settings.errorRequeueInterval }
    match ← Pass.attempt (AggregatorClient.forManaged aggregator ctx.settings.httpTimeout) with
    | .error e => return ctx.failed e.message
    | .ok client => return ctx.schedule (← kinds ctx aggregator client {} ManagerKind.all)

/-- A pass over the aggregator of a name; one that is not there is no failure (`coordinate_key`). -/
def coordinateNamed (ctx : Coordinate.Context) (ns name : String) : Pass Coordination := do
  match ← Pass.getResource Kind.aggregatorName ns name with
  | none => return {}
  | some r => coordinate ctx r

end Steward
