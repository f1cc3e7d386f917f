import Steward.Json.Basic

/-!
# The shape of a document

What a document looks like from outside: the word for its type, whether it stands for nothing, and
what it is made up of when it is gone through entry by entry.

These are `type`, `bool` and `iter` of a value.
-/

namespace Steward.Json

/-- The word for the type of a document in messages. -/
def typeWord : Json → String
  | .null => "NoneType"
  | .bool _ => "bool"
  | .int _ => "int"
  | .float _ => "float"
  | .string _ => "str"
  | .array _ => "list"
  | .object _ => "dict"

/-- A document that is not made up of others. -/
def isScalar : Json → Bool
  | .array _ | .object _ => false
  | _ => true

/-- A document that stands for nothing: null, false, zero or empty. -/
def isBlank : Json → Bool
  | .null => true
  | .bool b => !b
  | .int n => n == 0
  | .float x => x.equalsInt 0
  | .string s => s.isEmpty
  | .array items => items.isEmpty
  | .object members => members.isEmpty

/-- The entries of a list; the keys of an object count as entries, and so do the characters of a
text. -/
def entries? : Json → Option (List Json)
  | .array items => some items
  | .object members => some (members.map fun m => .string m.1)
  | .string s => some (s.toList.map fun c => .string (String.singleton c))
  | _ => none

/-- The message for a document that has no entries. -/
def noEntries (v : Json) : String := "'" ++ v.typeWord ++ "' object is not iterable"

end Steward.Json
