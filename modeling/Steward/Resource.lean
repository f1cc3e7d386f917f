import Steward.Document.Block
import Steward.Text.Case

/-!
# Resources

A resource is a namespaced, versioned object with a specification and a status.  Its version
changes with every write and guards status updates; its generation changes only when the
specification does.  Finalizers hold a resource back from being purged once its deletion was
requested.

This is the program's `Resource`, with `finalizer_for_kind`.
-/

namespace Steward

open Block

variable [Validator]

/-- A stored resource. -/
structure Resource where
  id : Option Int := none
  kind : String
  ns : String := "default"
  name : String
  generation : Int := 1
  version : Int := 1
  finalizers : List String := []
  deletion : Option Timestamp := none
  spec : Json.Members := []
  status : Json.Members := []
  deriving DecidableEq, Repr

namespace Resource

/-- All members but the two documents, which come last. -/
def head : Block Resource (Json.Members → Json.Members → Resource) :=
  Resource.mk
    <$> optional "id" "id" .whole (·.id)
    <*> required "kind" "kind" .text (·.kind)
    <*> defaulted "namespace" "namespace" .text "default" (·.ns)
    <*> required "name" "name" .text (·.name)
    <*> defaulted "generation" "generation" .whole 1 (·.generation)
    <*> defaulted "resource_version" "resource_version" .whole 1 (·.version)
    <*> defaulted "finalizers" "finalizers" Codec.text.list [] (·.finalizers)
    <*> optional "deletion_timestamp" "deletion_timestamp" .timestamp (·.deletion)

def block : Block Resource Resource :=
  head
    <*> defaulted "spec" "spec" .freeForm [] (·.spec)
    <*> defaulted "status" "status" .freeForm [] (·.status)

def codec : Codec Resource := block.codec "Resource"

/-- Read a resource. -/
def ofMembers (ms : Json.Members) : Except ReadError Resource :=
  (block.read ms).toExcept "Resource"

/-- All members of a resource, null where nothing is set. -/
def toJson (r : Resource) : Except WriteError Json := do
  let spec ← Codec.freeForm.document r.spec
  let status ← Codec.freeForm.document r.status
  return .object [("id", .ofInt? r.id), ("kind", .string r.kind), ("namespace", .string r.ns),
    ("name", .string r.name), ("generation", .int r.generation),
    ("resource_version", .int r.version), ("finalizers", .ofTexts r.finalizers),
    ("deletion_timestamp", .ofText? (r.deletion.map Validator.timestampText)), ("spec", spec),
    ("status", status)]

/-- The name by which a resource is told from all others. -/
def key (r : Resource) : String := r.kind ++ "/" ++ r.ns ++ "/" ++ r.name

/-- Deletion was requested (`being_deleted`). -/
def beingDeleted (r : Resource) : Bool := r.deletion.isSome

def hasFinalizer (r : Resource) (finalizer : String) : Bool := r.finalizers.contains finalizer

end Resource

/-- The finalizer that the controller puts on resources of a kind (`finalizer_for_kind`). -/
def finalizerFor (kind : String) : String := Text.lower kind ++ ".arr-operator.io/finalizer"

end Steward
