import Steward.Resource

/-!
# Events

Something worth telling an operator about a resource.  A recorder keeps the latest events, up to
its size.

These are the program's `Event` and `EventRecorder`.
-/

namespace Steward

structure Event where
  type : String
  reason : String
  message : String
  kind : String
  ns : String
  name : String
  deriving DecidableEq, Repr

namespace Event

def normalType : String := "Normal"
def warningType : String := "Warning"

/-- An event about a resource. -/
def about (r : Resource) (type reason message : String) : Event :=
  ⟨type, reason, message, r.kind, r.ns, r.name⟩

def normal (r : Resource) (reason message : String) : Event := about r normalType reason message
def warning (r : Resource) (reason message : String) : Event := about r warningType reason message

/-- The resource that the event is about (`involved_object`). -/
def involved (e : Event) : String := e.kind ++ "/" ++ e.ns ++ "/" ++ e.name

/-- The event is about the resource. -/
def isAbout (e : Event) (kind ns name : String) : Bool :=
  e.kind == kind && e.ns == ns && e.name == name

/-- All that an event says. -/
def toJson (e : Event) : Json :=
  .object [("type", .string e.type), ("reason", .string e.reason), ("message", .string e.message),
    ("kind", .string e.kind), ("namespace", .string e.ns), ("name", .string e.name),
    ("involved_object", .string e.involved)]

end Event

/-- The latest events, oldest first (`EventRecorder`). -/
structure Recorder where
  size : Nat := 512
  events : List Event := []
  deriving DecidableEq, Repr

namespace Recorder

/-- Record an event; the oldest is dropped where there is no room. -/
def record (r : Recorder) (e : Event) : Recorder :=
  let events := r.events ++ [e]
  { r with events := events.drop (events.length - r.size) }

/-- Events about a resource and of a reason, where these are given. -/
def history (r : Recorder) (resource : Option (String × String × String))
    (reason : Option String) : List Event :=
  r.events.filter fun e =>
    (match resource with
      | some (kind, ns, name) => e.isAbout kind ns name
      | none => true) &&
    (match reason with
      | some reason => e.reason == reason
      | none => true)

theorem length_record (r : Recorder) (e : Event) : (r.record e).events.length ≤ r.size := by
  simp [record]
  omega

end Recorder

end Steward
