import Steward.Decimal.Shortest
import Steward.Json.Storable
import Steward.Text.Quoted

/-!
# Documents as text

`Json.text` writes a document on one line: a blank after each comma and colon, and all characters
beyond ASCII escaped by UTF-16 units, so that the text is ASCII.  `Json.canonicalText` writes it
with the keys of every object sorted by code points: the text that is digested to tell whether a
document has changed.  `dump` is the text of a document that can be written (`json.dumps`), and
`canonicalDump` its canonical text.

The program writes with `json.dumps`, and sorts with its `sort_keys`.
-/

namespace Steward.Json

/-! ## 1. Strings -/

/-- A UTF-16 unit by its number. -/
def unitEscape (n : Nat) : List Char := '\\' :: 'u' :: Text.hexDigits 4 n

/-- One character inside a string. -/
def escapedChar (c : Char) : List Char :=
  if c == '"' then ['\\', '"']
  else if c == '\\' then ['\\', '\\']
  else if c == '\n' then ['\\', 'n']
  else if c == '\r' then ['\\', 'r']
  else if c == '\t' then ['\\', 't']
  else if c.toNat == 0x08 then ['\\', 'b']
  else if c.toNat == 0x0C then ['\\', 'f']
  else if 0x20 ≤ c.toNat ∧ c.toNat < 0x7F then [c]
  else if c.toNat < 0x10000 then unitEscape c.toNat
  else
    let n := c.toNat - 0x10000
    unitEscape (0xD800 + n / 0x400) ++ unitEscape (0xDC00 + n % 0x400)

/-- A string between double quotes. -/
def stringText (s : String) : List Char :=
  '"' :: s.toList.flatMap escapedChar ++ ['"']

/-! ## 2. Values -/

/-- A binary number. -/
def floatText (x : Binary64) : List Char :=
  if x.isNaN then "NaN".toList
  else if x.isFinite then x.finiteText
  else (if x.negative then ['-'] else []) ++ "Infinity".toList

/-- A whole number. -/
def intText (n : Int) : List Char :=
  (if n < 0 then ['-'] else []) ++ Nat.toDigits 10 n.natAbs

mutual

/-- The characters of a document. -/
def chars : Json → List Char
  | .null => "null".toList
  | .bool true => "true".toList
  | .bool false => "false".toList
  | .int n => intText n
  | .float x => floatText x
  | .string s => stringText s
  | .array items => '[' :: itemChars items ++ [']']
  | .object members => '{' :: memberChars members ++ ['}']

/-- The items of a list. -/
def itemChars : List Json → List Char
  | [] => []
  | [v] => chars v
  | v :: rest => chars v ++ ',' :: ' ' :: itemChars rest

/-- The members of an object. -/
def memberChars : List (String × Json) → List Char
  | [] => []
  | [(k, v)] => stringText k ++ ':' :: ' ' :: chars v
  | (k, v) :: rest => stringText k ++ ':' :: ' ' :: chars v ++ ',' :: ' ' :: memberChars rest

end

/-- The text of a document. -/
def text (v : Json) : String := String.ofList v.chars

/-! ## 3. Canonical text -/

/-- Sort members by key. -/
def sortMembers (ms : Members) : Members :=
  ms.mergeSort fun a b => decide (a.1 ≤ b.1)

mutual

/-- Sort the members of every object in a document. -/
def sorted : Json → Json
  | .array items => .array (sortedItems items)
  | .object members => .object (sortMembers (sortedMembers members))
  | .null => .null
  | .bool b => .bool b
  | .int n => .int n
  | .float x => .float x
  | .string s => .string s

/-- Sort inside each item. -/
def sortedItems : List Json → List Json
  | [] => []
  | v :: rest => sorted v :: sortedItems rest

/-- Sort inside each member. -/
def sortedMembers : List (String × Json) → List (String × Json)
  | [] => []
  | (k, v) :: rest => (k, sorted v) :: sortedMembers rest

end

/-- The text of a document with sorted keys. -/
def canonicalText (v : Json) : String := v.sorted.text

/-! ## 4. Writing -/

/-- Write a document, up to what cannot be written. -/
def dump [Room] (v : Json) : Except WriteError String :=
  match v.obstacle? Room.writing with
  | some e => .error e
  | none => .ok v.text

/-- Write a document with sorted keys.  It can be written in any order of its keys or in none; the
order decides what is come to first. -/
def canonicalDump [Room] (v : Json) : Except WriteError String :=
  match v.obstacle? Room.writing with
  | some e => .error ((v.sorted.obstacle? Room.writing).getD e)
  | none => .ok v.canonicalText

end Steward.Json
