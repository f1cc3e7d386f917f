import Steward.Json.Basic
import Steward.Text.Numeral

/-!
# Documents as they are stored

Free-form parts of a document are stored as they are, but for two things: a number that is infinite
or undefined is stored as null, and a part that is nested too deep is not stored at all.  A whole
number of too many digits can be stored, but not written as text; neither can a document that has
more levels than there is room for.
-/

namespace Steward

/-- Why a document cannot be written. -/
inductive WriteError where
  /-- A free-form part has more levels than the validation library serializes; it says so. -/
  | tooDeep (text : String)
  /-- There is no room for the levels of the document. -/
  | tooNested
  | longNumeral
  deriving DecidableEq, Repr

/-- The name of the error. -/
def WriteError.kind : WriteError → String
  | .tooNested => "RecursionError"
  | .tooDeep _ | .longNumeral => "ValueError"

/-- The text of the error. -/
def WriteError.message : WriteError → String
  | .tooDeep text => text
  | .tooNested => "maximum recursion depth exceeded while encoding a JSON object"
  | .longNumeral =>
    s!"Exceeds the limit ({Text.numeralLimit} digits) for integer string conversion; use sys.set_int_max_str_digits() to increase the limit"

namespace Json

/-! ## 1. Height -/

mutual

/-- The number of levels of a document. -/
def height : Json → Nat
  | .array items => heightOfItems items + 1
  | .object members => heightOfMembers members + 1
  | _ => 1

/-- The height of the highest item. -/
def heightOfItems : List Json → Nat
  | [] => 0
  | v :: rest => max (height v) (heightOfItems rest)

/-- The height of the highest value. -/
def heightOfMembers : List (String × Json) → Nat
  | [] => 0
  | (_, v) :: rest => max (height v) (heightOfMembers rest)

end

/-! ## 2. Numbers -/

mutual

/-- The document that is stored for a document. -/
def storable : Json → Json
  | .float x => if x.isFinite then .float x else .null
  | .array items => .array (storableItems items)
  | .object members => .object (storableMembers members)
  | v => v

/-- The items that are stored. -/
def storableItems : List Json → List Json
  | [] => []
  | v :: rest => storable v :: storableItems rest

/-- The members that are stored. -/
def storableMembers : List (String × Json) → List (String × Json)
  | [] => []
  | (k, v) :: rest => (k, storable v) :: storableMembers rest

end

/-! ## 3. Long numbers -/

/-- A whole number that can be written as text. -/
def isPrintableInt (n : Int) : Bool := (Nat.toDigits 10 n.natAbs).length ≤ Text.numeralLimit

mutual

/-- All whole numbers of a document can be written as text. -/
def printable : Json → Bool
  | .int n => isPrintableInt n
  | .array items => printableItems items
  | .object members => printableMembers members
  | _ => true

/-- All whole numbers of the items can be written as text. -/
def printableItems : List Json → Bool
  | [] => true
  | v :: rest => printable v && printableItems rest

/-- All whole numbers of the members can be written as text. -/
def printableMembers : List (String × Json) → Bool
  | [] => true
  | (_, v) :: rest => printable v && printableMembers rest

end

/-! ## 4. What cannot be written -/

mutual

/-- What a writer comes to first that it cannot write, if anything; `room` is the number of levels
that may still be opened. -/
def obstacle? (room : Nat) : Json → Option WriteError
  | .int n => if isPrintableInt n then none else some .longNumeral
  | .array items => if room = 0 then some .tooNested else obstacleOfItems? (room - 1) items
  | .object members => if room = 0 then some .tooNested else obstacleOfMembers? (room - 1) members
  | _ => none

/-- What it comes to first in the items. -/
def obstacleOfItems? (room : Nat) : List Json → Option WriteError
  | [] => none
  | v :: rest => (obstacle? room v).or (obstacleOfItems? room rest)

/-- What it comes to first in the members. -/
def obstacleOfMembers? (room : Nat) : List (String × Json) → Option WriteError
  | [] => none
  | (_, v) :: rest => (obstacle? room v).or (obstacleOfMembers? room rest)

end

end Json

end Steward
