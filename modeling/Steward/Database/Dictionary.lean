import Steward.Document.Codec
import Steward.Json.Equality
import Steward.Json.Literal

/-!
# Dictionaries of the database

What the database answers may hold keys that are no texts.  A dictionary keeps any scalar as a key,
one value per key, in the order in which the keys first came; it is read as an object where all keys
are texts, and written with every key as text.

Such are the arguments of `dict` in `_parse_json_dict`.
-/

namespace Steward.Database

/-- Keys with their values. -/
abbrev Dictionary := List (Json × Json)

namespace Dictionary

/-- Give a key a value: where an equal key stands, else at the end. -/
def set : Dictionary → Json → Json → Dictionary
  | [], key, value => [(key, value)]
  | (k, v) :: rest, key, value =>
    if k.same key then (k, value) :: rest else (k, v) :: set rest key value

/-- A dictionary from entries. -/
def ofEntries (entries : List (Json × Json)) : Dictionary :=
  entries.foldl (fun d e => d.set e.1 e.2) []

/-- The text of a key. -/
def keyText : Json → String
  | .string s => s
  | key => key.text

/-- The dictionary as an object. -/
def toJson (d : Dictionary) : Json := .object (Table.ofEntries (d.map fun e => (keyText e.1, e.2)))

/-- The step to the value of a key. -/
def step : Json → Step
  | .string s => .member s
  | .bool b => .numbered (if b then 1 else 0)
  | .int n =>
    if FitsWord n then .numbered n
    else .member (Json.int n).literal
  | key => .member key.literal

/-- The members that a dictionary of texts holds; any other key is a violation. -/
def read : Dictionary → Checked Json.Members
  | [] => .valid []
  | (.string key, value) :: rest => (read rest).map ((key, value) :: ·)
  | (key, value) :: rest =>
    let entry : Checked (String × Json) :=
      (((Checked.fault .notText : Checked String).below (.member "[key]")).below (step key)).map
        (·, value)
    (entry.map List.cons).ap (read rest)

end Dictionary

end Steward.Database
