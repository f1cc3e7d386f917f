import Steward.Json.Parser
import Steward.Json.Printer
import Steward.Json.Shape
import Steward.Migration.Directory
import Steward.Digest.Sha256
import Steward.Program
import Steward.Resource
import Steward.Secret.Value
import Steward.Settings.Basic

/-!
# Talking to the database

The statements that the store of resources and secrets is kept by, with the arguments that are sent
along, and the answers as documents.  What a statement does is the database's own affair; here it is
a request that may fail.  A statement is not sent if there is no room to write its document.

There is a statement for each query of `DatabaseManager` and of `run_migrations`.
-/

namespace Steward.Database

/-! ## 1. Statements -/

/-- What is taken of the answer to a statement. -/
inductive Fetch where
  | nothing
  | value
  | row
  | rows
  deriving DecidableEq, Repr

/-- A statement with all that it depends on. -/
inductive Statement where
  /-- Take the lock that keeps two controllers from migrating one database at once. -/
  | lock
  | unlock
  /-- Make room for the record of migrations. -/
  | prepareRecord
  /-- The versions that are on record. -/
  | recorded
  /-- The text of a migration. -/
  | script (text : String)
  | record (version filename : String)
  | createResource (kind ns name : String) (spec : Json)
  | replaceSpec (kind ns name : String) (spec : Json)
  | requestDeletion (kind ns name : String)
  | getResource (kind ns name : String)
  | listResources (kind : String) (ns : Option String)
  | dueResources (limit : Json)
  | writeStatus (id : Option Int) (status : Json) (version : Int)
  | schedule (id : Option Int) (delay : Option Binary64) (generation : Int) (beingDeleted : Bool)
  | purge (id : Json)
  | addFinalizer (id : Option Int) (finalizer : String) (version : Int)
  | removeFinalizer (id : Option Int) (finalizer : String) (version : Int)
  | putSecret (ns name : String) (data : SecretData)
  | getSecret (ns name : String)
  | deleteSecret (ns name : String)
  deriving DecidableEq, Repr

/-- The digest by which a change of a specification is noticed (`_calculate_spec_hash`). -/
def specHash (spec : Json) : String := Digest.ofText spec.canonicalText

/-- The number of the lock (`MIGRATION_LOCK_ID`). -/
def lockNumber : Int := 7410223

namespace Statement

/-- The word that a statement begins with. -/
def verb : Statement → String
  | .lock | .unlock | .recorded | .getResource .. | .listResources .. | .dueResources ..
  | .getSecret .. => "SELECT"
  | .prepareRecord => "CREATE"
  | .script text => Text.firstWord text
  | .record .. | .createResource .. | .putSecret .. => "INSERT"
  | .replaceSpec .. | .requestDeletion .. | .writeStatus .. | .schedule .. | .addFinalizer ..
  | .removeFinalizer .. => "UPDATE"
  | .purge .. | .deleteSecret .. => "DELETE"

def fetch : Statement → Fetch
  | .lock | .unlock | .prepareRecord | .script .. | .record .. | .schedule .. | .putSecret .. =>
    .nothing
  | .purge .. | .getSecret .. | .deleteSecret .. => .value
  | .recorded | .listResources .. | .dueResources .. => .rows
  | .createResource .. | .replaceSpec .. | .requestDeletion .. | .getResource ..
  | .writeStatus .. | .addFinalizer .. | .removeFinalizer .. => .row

/-- The object that the values of a secret are sent as. -/
def secretDocument (data : SecretData) : Json := .object (data.map fun e => (e.1, .string e.2))

/-- What stands in the way of writing the document that is sent along, if anything. -/
def obstacle? [Json.Room] : Statement → Option WriteError
  | .createResource _ _ _ document | .replaceSpec _ _ _ document | .writeStatus _ document _ =>
    document.obstacle? Json.Room.writing
  | .putSecret _ _ data => (secretDocument data).obstacle? Json.Room.writing
  | _ => none

/-- The arguments in order; documents are sent as text. -/
def arguments : Statement → List Json
  | .lock | .unlock => [.int lockNumber]
  | .prepareRecord | .recorded | .script .. => []
  | .record version filename => [.string version, .string filename]
  | .createResource kind ns name spec | .replaceSpec kind ns name spec =>
    [.string kind, .string ns, .string name, .string spec.text, .string (specHash spec)]
  | .requestDeletion kind ns name | .getResource kind ns name =>
    [.string kind, .string ns, .string name]
  | .listResources kind ns => .string kind :: ns.toList.map .string
  | .dueResources limit => [limit]
  | .writeStatus id status version => [.ofInt? id, .string status.text, .int version]
  | .schedule id delay generation beingDeleted =>
    [.ofInt? id, (delay.map Json.float).getD .null, .int generation, .bool beingDeleted]
  | .purge id => [id]
  | .addFinalizer id finalizer version | .removeFinalizer id finalizer version =>
    [.ofInt? id, .string finalizer, .int version]
  | .putSecret ns name data =>
    [.string ns, .string name, .string (secretDocument data).text]
  | .getSecret ns name | .deleteSecret ns name => [.string ns, .string name]

end Statement

/-! ## 2. Requests -/

/-- What can go wrong. -/
inductive Error where
  /-- The schema cannot be set up before there is a connection. -/
  | notConnected
  | noPool
  /-- A write was based on a version of the resource that is no longer the stored one. -/
  | stale (key : String) (version : Int)
  | noColumn (name : String)
  | notRow (answer : Json)
  | noEntries (answer : Json)
  /-- An entry of a list has to be a key with its value. -/
  | notPair (index : Nat) (entry : Json)
  /-- A scalar was needed as a key. -/
  | notKey (value : Json)
  | unreadable (text : String) (refusal : Json.Refusal)
  | unfit (error : ReadError)
  /-- A secret has to be given as an object. -/
  | notSecret (values : Json)
  /-- A value of a secret has to be a text. -/
  | notSecretValue (value : Json)
  | hugeDelay
  /-- A delay has to be a number or a text. -/
  | notDelay (value : Json)
  | unreadableDelay (text : String)
  | directory (error : Migration.DirectoryError)
  /-- What the database raises on its own account. -/
  | raised (kind text : String)
  deriving DecidableEq, Repr

/-- A document could not be written. -/
def Error.ofWrite (e : WriteError) : Error := .raised e.kind e.message

/-- The text of the error. -/
def Error.message : Error → String
  | .notConnected =>
    "Database not connected. Call connect() before performing operations."
  | .noPool => "'NoneType' object has no attribute 'acquire'"
  | .stale key version => s!"Conflict updating {key}: resource version {version} is stale"
  | .noColumn name => Text.quoted name
  | .notRow (.array _) => "list indices must be integers or slices, not str"
  | .notRow (.string _) => "string indices must be integers, not 'str'"
  | .notRow answer => "'" ++ answer.typeWord ++ "' object is not subscriptable"
  | .noEntries answer => answer.noEntries
  | .notPair index entry =>
    match entry.entries? with
    | none => s!"cannot convert dictionary update sequence element #{index} to a sequence"
    | some es =>
      s!"dictionary update sequence element #{index} has length {es.length}; 2 is required"
  | .notKey v => "unhashable type: '" ++ v.typeWord ++ "'"
  | .unreadable text refusal => refusal.message text
  | .unfit e => e.message
  | .notSecret v => "'" ++ v.typeWord ++ "' object has no attribute 'items'"
  | .notSecretValue v => "'" ++ v.typeWord ++ "' object has no attribute 'encode'"
  | .hugeDelay => "int too large to convert to float"
  | .notDelay v => "float() argument must be a string or a real number, not '" ++ v.typeWord ++ "'"
  | .unreadableDelay text => "could not convert string to float: " ++ Text.quoted text
  | .directory e => e.message
  | .raised _ text => text

/-- The requests to a database. -/
inductive Request where
  | connect (settings : Settings.Database)
  | close
  | begin
  | commit
  | rollback
  | run (statement : Statement)
  deriving DecidableEq, Repr

/-- What is replied. -/
@[reducible]
def Request.Reply : Request → Type
  | .run _ => Except Error Json
  | _ => Except Error Unit

@[reducible]
def signature : Signature := ⟨Request, Request.Reply⟩

/-- Work on a database that may fail. -/
abbrev Work (α : Type) := ExceptT Error (Program signature) α

namespace Work

variable {α : Type}

/-- Make a request, and go on with the reply. -/
def ask (r : Request) (next : Request.Reply r → Except Error α) : Work α :=
  ExceptT.mk (.ask r fun reply => .done (next reply))

/-- Run a statement. -/
def run (s : Statement) : Work Json := ask (.run s) id

/-- Go on with a value, or fail. -/
def settle (r : Except Error α) : Work α := ExceptT.mk (.done r)

/-- Go on with the outcome, whether the work failed or not. -/
def attempt (w : Work α) : Work (Except Error α) := ExceptT.mk do
  let r ← ExceptT.run w
  return .ok r

def connect (settings : Settings.Database) : Work Unit := ask (.connect settings) id

def close : Work Unit := ask .close id

def begin : Work Unit := ask .begin id

def commit : Work Unit := ask .commit id

def rollback : Work Unit := ask .rollback id

end Work

end Steward.Database
