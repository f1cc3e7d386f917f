import Steward.Database.Schema
import Steward.Decimal.Reading
import Steward.Migration.Run

/-!
# The store in the database

The store of resources and secrets as statements of the database.  Every write that is based on a
version is refused if the database finds no row of that version.

This is `DatabaseManager`, method by method; a stale write is its `ConflictError`.
-/

namespace Steward

/-- A database, and whether its pool of connections was made. -/
structure Database where
  settings : Settings.Database
  connected : Bool := false
  deriving DecidableEq, Repr

namespace Database

variable [Validator] [Json.Room]

/-! ## 1. Connections -/

/-- Make the pool of connections. -/
def connect (d : Database) : Work Database := do
  Work.connect d.settings
  return { d with connected := true }

/-- Close the pool of connections, if it was made. -/
def close (d : Database) : Work Unit := if d.connected then Work.close else return ()

/-- Fail where there is no pool of connections (`_ensure_connected`). -/
def requirePool (d : Database) : Work Unit :=
  if d.connected then return () else throw .notConnected

/-- Bring the schema up to date (`initialize_schema`). -/
def prepareSchema (d : Database) : Work Unit := do
  d.requirePool
  let _ ← Migration.runIn schemaPath (some schemaEntries)

/-- Run a statement on a connection of the pool, if its document can be written. -/
def run (d : Database) (s : Statement) : Work Json :=
  if d.connected then
    match s.obstacle? with
    | some e => throw (.ofWrite e)
    | none => Work.run s
  else throw .noPool

/-! ## 2. Resources -/

/-- The resource in a row, if there is one. -/
def resource? (row : Json) : Work (Option Resource) :=
  if row.isBlank then return none else do
    return some (← Work.settle (resource row))

/-- The resources in rows. -/
def resources (answer : Json) : Work (List Resource) :=
  Work.settle (do (← rows answer).mapM resource)

/-- The resource that a write based on `r` has left behind. -/
def written (r : Resource) (row : Json) : Work Resource :=
  if row = .null then throw (.stale r.key r.version) else Work.settle (resource row)

def createResource (d : Database) (kind ns name : String) (spec : Json) : Work Resource := do
  Work.settle (resource (← d.run (.createResource kind ns name spec)))

/-- The canonical text is written for its digest before a connection is asked for
(`update_spec`). -/
def replaceSpec (d : Database) (kind ns name : String) (spec : Json) : Work (Option Resource) := do
  let _ ← Work.settle (spec.canonicalDump.mapError .ofWrite)
  resource? (← d.run (.replaceSpec kind ns name spec))

def getResource (d : Database) (kind ns name : String) : Work (Option Resource) := do
  resource? (← d.run (.getResource kind ns name))

def listResources (d : Database) (kind : String) (ns : Option String) : Work (List Resource) := do
  resources (← d.run (.listResources kind ns))

/-- How many due resources are asked for unless a limit is given. -/
def defaultLimit : Int := 20

def dueResources (d : Database) (limit : Json) : Work (List Resource) := do
  resources (← d.run (.dueResources limit))

def updateStatus (d : Database) (r : Resource) (status : Json) : Work Resource := do
  written r (← d.run (.writeStatus r.id status r.version))

/-- A delay as a binary number; a whole number must not be beyond all of them. -/
def delay : Json → Except Error (Option Binary64)
  | .null => .ok none
  | .bool b => .ok (some (Binary64.ofInt b.toInt))
  | .int n =>
    let x := Binary64.ofInt n
    if x.isFinite then .ok (some x) else .error .hugeDelay
  | .float x => .ok (some x)
  | .string text =>
    match Binary64.ofText? text with
    | some x => .ok (some x)
    | none => .error (.unreadableDelay text)
  | v => .error (.notDelay v)

/-- Say when a resource is due again; without a delay it is not (`schedule_reconcile`). -/
def schedule (d : Database) (r : Resource) (after : Json) : Work Unit := do
  let after ← Work.settle (delay after)
  let _ ← d.run (.schedule r.id after r.generation r.beingDeleted)

/-- Remove a resource that waits for nothing else; false if there is none
(`hard_delete_resource`). -/
def purge (d : Database) (id : Json) : Work Bool := do
  return !(← d.run (.purge id)).isBlank

/-- Request a deletion; a resource without finalizers is removed at once (`request_deletion`). -/
def requestDeletion (d : Database) (kind ns name : String) : Work Bool := do
  let row ← d.run (.requestDeletion kind ns name)
  if row = .null then return false
  let finalizers ← Work.settle (do listColumn (← column "finalizers" row))
  if finalizers.isBlank then
    let _ ← d.purge (← Work.settle (column "id" row))
  return true

def addFinalizer (d : Database) (r : Resource) (finalizer : String) : Work Resource := do
  written r (← d.run (.addFinalizer r.id finalizer r.version))

/-- Remove a finalizer; a resource that is being deleted goes with its last one
(`remove_finalizer`). -/
def removeFinalizer (d : Database) (r : Resource) (finalizer : String) :
    Work (Option Resource) := do
  let updated ← written r (← d.run (.removeFinalizer r.id finalizer r.version))
  if updated.beingDeleted && updated.finalizers.isEmpty then
    let _ ← d.purge (.ofInt? updated.id)
    return none
  else return some updated

/-! ## 3. Secrets -/

def putSecret (d : Database) (ns name : String) (values : Table String) : Work Unit := do
  let _ ← d.run (.putSecret ns name (Secret.encodeAll values))

/-- The values of a secret as they are given. -/
def givenValues : Json → Except Error (Table String)
  | .object members => members.mapM fun
    | (key, .string value) => .ok (key, value)
    | (_, v) => .error (.notSecretValue v)
  | v => .error (.notSecret v)

/-- The stored values of a secret. -/
def secretValues : Json → Except Error (Option Held)
  | .null => .ok none
  | .string text => do return some (.document (← parse text))
  | v => do return some (← held v)

def getSecret (d : Database) (ns name : String) : Work (Option Held) := do
  Work.settle (secretValues (← d.run (.getSecret ns name)))

def deleteSecret (d : Database) (ns name : String) : Work Bool := do
  return (← d.run (.deleteSecret ns name)) != .null

end Database

end Steward
