import Steward.Database.Dictionary
import Steward.Database.Statement

/-!
# Rows

A row is an object of columns.  Columns that hold documents come as text or already read, and an
empty one may be null; `resource` reads a row of resources either way.

This is `DatabaseManager._parse_resource_row`: `listColumn` is `_parse_json_list`, `objectColumn` is
`_parse_json_dict`.
-/

namespace Steward.Database

variable [Validator] [Json.Room]

/-- The value of a column. -/
def column (name : String) : Json → Except Error Json
  | .object columns => match Table.get? columns name with
    | some v => .ok v
    | none => .error (.noColumn name)
  | answer => .error (.notRow answer)

/-- The rows of an answer. -/
def rows (answer : Json) : Except Error (List Json) :=
  match answer.entries? with
  | some es => .ok es
  | none => .error (.noEntries answer)

/-- Read a text. -/
def parse (text : String) : Except Error Json := (Json.parse text).mapError (.unreadable text)

/-- A list in a column (`_parse_json_list`). -/
def listColumn : Json → Except Error Json
  | .string text => parse text
  | v =>
    if v.isBlank then .ok (.array [])
    else match v.entries? with
      | some es => .ok (.array es)
      | none => .error (.noEntries v)

/-- A value that may be a key. -/
def asKey (v : Json) : Except Error Json := if v.isScalar then .ok v else .error (.notKey v)

/-- The key and value that an entry of a list stands for. -/
def pair (index : Nat) (entry : Json) : Except Error (Json × Json) :=
  match entry.entries? with
  | some [key, value] => do return (← asKey key, value)
  | _ => .error (.notPair index entry)

/-- The keys and values of a list of pairs. -/
def pairs : Nat → List Json → Except Error (List (Json × Json))
  | _, [] => .ok []
  | index, e :: rest => do
    let p ← pair index e
    return p :: (← pairs (index + 1) rest)

/-- What a column of documents holds: a document, or entries that were not yet made one. -/
inductive Held where
  | document (v : Json)
  | entries (d : Dictionary)
  deriving DecidableEq, Repr

namespace Held

/-- What is held, as a document. -/
def toJson : Held → Json
  | .document v => v
  | .entries d => d.toJson

/-- What is held, as the members of an object. -/
def read : Held → Checked Json.Members
  | .document v => Codec.members.read v
  | .entries d => d.read

end Held

/-- A value as entries. -/
def held : Json → Except Error Held
  | .object members => .ok (.document (.object members))
  | .array items => do return .entries (Dictionary.ofEntries (← pairs 0 items))
  | v => .error (.noEntries v)

/-- An object in a column (`_parse_json_dict`). -/
def objectColumn (v : Json) : Except Error Held :=
  if v.isBlank then .ok (.document (.object []))
  else match v with
    | .string text => do return .document (← parse text)
    | v => held v

/-- The resource in a row (`_parse_resource_row`). -/
def resource (row : Json) : Except Error Resource := do
  let id ← column "id" row
  let kind ← column "kind" row
  let ns ← column "namespace" row
  let name ← column "name" row
  let generation ← column "generation" row
  let version ← column "resource_version" row
  let finalizers ← listColumn (← column "finalizers" row)
  let deletion ← column "deletion_timestamp" row
  let spec ← objectColumn (← column "spec" row)
  let status ← objectColumn (← column "status" row)
  let head := Resource.head.read [("id", id), ("kind", kind), ("namespace", ns), ("name", name),
    ("generation", generation), ("resource_version", version), ("finalizers", finalizers),
    ("deletion_timestamp", deletion)]
  let whole := (head.ap (spec.read.below (.member "spec"))).ap (status.read.below (.member "status"))
  (whole.toExcept "Resource").mapError .unfit

end Steward.Database
