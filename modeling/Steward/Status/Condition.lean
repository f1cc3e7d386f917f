import Steward.Document.Block

/-!
# Conditions

The conditions of a resource are a list keyed by type.  `Conditions.set` is the only change ever
made to it: entries of the type are replaced where they stand, a new type comes last, and the
transition time moves only when the status value changes.

This is `Condition`, with `find_condition`, `is_condition_true` and `set_condition`.
-/

namespace Steward

/-- A named signal of a resource's state. -/
structure Condition where
  type : String
  status : String
  reason : String
  message : String
  observedGeneration : Option Int
  lastTransition : Option Timestamp
  deriving DecidableEq, Repr

namespace Condition

open Block

variable [Validator]

def block : Block Condition Condition :=
  Condition.mk
    <$> required "type" "type" .text (·.type)
    <*> required "status" "status" .text (·.status)
    <*> defaulted "reason" "reason" .text "" (·.reason)
    <*> defaulted "message" "message" .text "" (·.message)
    <*> optional "observedGeneration" "observed_generation" .whole (·.observedGeneration)
    <*> optional "lastTransitionTime" "last_transition_time" .timestamp (·.lastTransition)

def codec : Codec Condition := block.codec "Condition"

/-- All members of a condition, null where nothing is set. -/
def toJson (c : Condition) : Json :=
  .object [("type", .string c.type), ("status", .string c.status), ("reason", .string c.reason),
    ("message", .string c.message), ("observedGeneration", .ofInt? c.observedGeneration),
    ("lastTransitionTime", .ofText? (c.lastTransition.map Validator.timestampText))]

end Condition

/-! ## 1. Types and status values -/

def Condition.ready : String := "Ready"
def Condition.connected : String := "Connected"
def Condition.synced : String := "Synced"

/-- The value of a condition that holds. -/
def Condition.holds : String := "True"

/-- The value of a condition that does not hold. -/
def Condition.fails : String := "False"

/-! ## 2. Lists of conditions -/

/-- Conditions in the order in which their types first appeared. -/
abbrev Conditions := List Condition

namespace Conditions

/-- The first condition of a type (`find_condition`). -/
def find? (cs : Conditions) (type : String) : Option Condition :=
  List.find? (fun c => c.type == type) cs

/-- The first condition of a type holds (`is_condition_true`). -/
def isTrue (cs : Conditions) (type : String) : Bool :=
  match find? cs type with
  | some c => c.status == Condition.holds
  | none => false

/-- The time since which a type has had a status: that of the present entry if it has the same
status and a time, else now. -/
def transitionTime (cs : Conditions) (type status : String) (now : Timestamp) : Timestamp :=
  match find? cs type with
  | some c => if c.status = status then c.lastTransition.getD now else now
  | none => now

/-- Replace the entries of the type of `c`, or append it if there are none. -/
def put (cs : Conditions) (c : Condition) : Conditions :=
  if (find? cs c.type).isSome then cs.map fun d => if d.type = c.type then c else d
  else cs ++ [c]

/-- Record the status of a type (`set_condition`). -/
def set (cs : Conditions) (type status reason message : String)
    (observedGeneration : Option Int) (now : Timestamp) : Conditions :=
  put cs { type, status, reason, message, observedGeneration,
           lastTransition := some (transitionTime cs type status now) }

end Conditions

end Steward
