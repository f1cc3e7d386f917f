import Steward.Json.Shape

/-!
# Looking into documents

Members of an object by key, taken as what they should be.  A member that is not there, or that is
something else, reads as the empty value of its type.
-/

namespace Steward.Json

/-- A member; null if there is none. -/
def field (v : Json) (key : String) : Json := (v.get? key).getD .null

def has (v : Json) (key : String) : Bool := (v.get? key).isSome

def isNull (v : Json) : Bool := v == .null

/-! ## 1. Values -/

def asText? : Json → Option String
  | .string s => some s
  | _ => none

def asText (v : Json) : String := v.asText?.getD ""

def asInt? : Json → Option Int
  | .int n => some n
  | .bool b => some (if b then 1 else 0)
  | .float x => some x.truncate
  | _ => none

def asItems : Json → List Json
  | .array vs => vs
  | _ => []

def asMembers : Json → Members
  | .object ms => ms
  | _ => []

/-! ## 2. Members -/

def text? (v : Json) (key : String) : Option String := (v.field key).asText?

def textAt (v : Json) (key : String) : String := (v.field key).asText

def textOr (v : Json) (key other : String) : String := (v.text? key).getD other

def int? (v : Json) (key : String) : Option Int := (v.field key).asInt?

/-- Whether a member stands for something. -/
def flagOr (v : Json) (key : String) (other : Bool) : Bool :=
  match v.get? key with
  | some w => !w.isBlank
  | none => other

def items (v : Json) (key : String) : List Json := (v.field key).asItems

def members (v : Json) (key : String) : Members := (v.field key).asMembers

/-- The members of a member, as texts. -/
def texts (v : Json) (key : String) : Table String :=
  (v.members key).map fun m => (m.1, m.2.asText)

end Steward.Json
