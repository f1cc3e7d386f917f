import Steward.Document.Whole
import Steward.Duration
import Steward.Json.Storable
import Steward.Timestamp.Reading

/-!
# Parts of a document

A codec reads a part of a document and writes it back.  Reading is lenient where a document may
have been written by hand: a flag may be a number or a word, a whole number may be text.  How far
this goes is the affair of a validation library, which is a parameter (`Validator`).  Writing has
one form only.
-/

namespace Steward

/-! ## 1. The validation library -/

/-- What is left to the validation library: how scalars are read where it is lenient about their
form (`bool`, `int` and `datetime` fields), how a timestamp is written, and how far free-form parts
are gone into when they are serialized (`model_dump`). -/
class Validator where
  flag : Json → Checked Bool
  whole : Json → Checked Int
  timestamp : Json → Checked Timestamp
  timestampText : Timestamp → String
  /-- The greatest height of a free-form value that is serialized. -/
  levels : Nat
  /-- The text of the error for a higher one. -/
  depthText : String

namespace Validator.Lax

/-- The words for the two flags, in lower case. -/
def flagOfWord? (s : String) : Option Bool :=
  let w := String.ofList (s.toList.map Char.toLower)
  if w ∈ ["0", "f", "false", "n", "no", "off"] then some false
  else if w ∈ ["1", "t", "true", "y", "yes", "on"] then some true
  else none

/-- The flag that a number stands for. -/
def flagOfWhole (n : Int) : Checked Bool :=
  if n = 0 then .valid false
  else if n = 1 then .valid true
  else if FitsWord n then .fault .unreadableFlag
  else .fault .notFlag

/-- A flag, as a truth value, a number or a word. -/
def flag : Json → Checked Bool
  | .bool b => .valid b
  | .int n => flagOfWhole n
  | .float x =>
    if x.isWhole ∧ x.truncate.natAbs < wordBound then flagOfWhole x.truncate
    else .fault .notFlag
  | .string s => match flagOfWord? s with
    | some b => .valid b
    | none => .fault .unreadableFlag
  | _ => .fault .notFlag

/-- A whole number, as a number, a truth value or text. -/
def whole : Json → Checked Int
  | .int n => .valid n
  | .bool b => .valid (if b then 1 else 0)
  | .float x => Whole.ofBinary x
  | .string s => Whole.ofText s
  | _ => .fault .notWhole

/-- A point in time that a text names. -/
def timestampOfText (s : String) : Checked Timestamp :=
  match Timestamp.ofText s with
  | .ok t => .valid t
  | .error .yearZero => .fault (.remoteTimestamp .yearZero)
  | .error p => .fault (.unreadableTimestamp p)

/-- A point in time that a number counts. -/
def timestampOfNumber : Except Timestamp.Problem Timestamp → Checked Timestamp
  | .ok t => .valid t
  | .error p => .fault (.remoteTimestamp p)

/-- A point in time that a whole number counts; one that does not fit 64 bits is taken as a binary
number. -/
def timestampOfWhole (n : Int) : Checked Timestamp :=
  if FitsWord n then timestampOfNumber (Timestamp.ofCount n)
  else
    let x := Binary64.ofInt n
    if x.isFinite then timestampOfNumber (Timestamp.ofBinary x) else .fault .notTimestamp

/-- A timestamp, as text or as a count of seconds or milliseconds. -/
def timestamp : Json → Checked Timestamp
  | .string s => timestampOfText s
  | .int n => timestampOfWhole n
  | .float x => timestampOfNumber (Timestamp.ofBinary x)
  | _ => .fault .notTimestamp

end Validator.Lax

/-- The lax mode of the library, as it answered where the answers of the program were recorded. -/
instance Validator.lax : Validator where
  flag := Lax.flag
  whole := Lax.whole
  timestamp := Lax.timestamp
  timestampText := Timestamp.text
  levels := 255
  depthText := "Maximum serialization depth exceeded"

variable [Validator]

/-- How to read a part of a document, and how to write it. -/
structure Codec (α : Type) where
  read : Json → Checked α
  write : α → Json
  /-- The height of the values in free-form parts. -/
  height : α → Nat := fun _ => 0

namespace Codec

/-! ## 2. Scalars -/

/-- Text. -/
def text : Codec String where
  read
    | .string s => .valid s
    | _ => .fault .notText
  write := .string

/-- A flag. -/
def flag : Codec Bool where
  read := Validator.flag
  write := .bool

/-- A whole number. -/
def whole : Codec Int where
  read := Validator.whole
  write := .int

/-- A timestamp. -/
def timestamp : Codec Timestamp where
  read := Validator.timestamp
  write t := .string (Validator.timestampText t)

/-! ## 3. Lists, objects and optional parts -/

/-- Read items in order from an index on, and collect what is wrong with each. -/
def readItems {α : Type} (read : Json → Checked α) (index : Nat) : List Json → Checked (List α)
  | [] => .valid []
  | v :: rest =>
    (((read v).below (.item index)).map List.cons).ap (readItems read (index + 1) rest)

/-- A list. -/
def list {α : Type} (c : Codec α) : Codec (List α) where
  read
    | .array items => readItems c.read 0 items
    | _ => .fault .notList
  write items := .array (items.map c.write)
  height items := (items.map c.height).foldl max 0

/-- An object of any members. -/
def members : Codec Json.Members where
  read
    | .object ms => .valid ms
    | _ => .fault .notObject
  write := .object

/-- A free-form part that is stored. -/
def freeForm : Codec Json.Members where
  read := members.read
  write ms := .object (Json.storableMembers ms)
  height := Json.heightOfMembers

/-- A part that may be null. -/
def nullable {α : Type} (c : Codec α) : Codec (Option α) where
  read
    | .null => .valid none
    | v => (c.read v).map some
  write
    | some a => c.write a
    | none => .null
  height
    | some a => c.height a
    | none => 0

/-- A duration that may be null. -/
def duration : Codec (Option Nat) where
  read v := match Duration.ofJson v with
    | .ok d => .valid d
    | .error .unbounded => .unbounded
    | .error e => .fault (.refused e.message)
  write
    | some n => .int n
    | none => .null

/-! ## 4. Writing to the store -/

/-- What is stored, if no free-form part is too high. -/
def document {α : Type} (c : Codec α) (a : α) : Except WriteError Json :=
  if Validator.levels < c.height a then .error (.tooDeep Validator.depthText)
  else .ok (c.write a)

end Codec

end Steward
