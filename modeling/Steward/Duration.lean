import Steward.Json.Literal
import Steward.Text.Numeral

/-!
# Durations

A duration is a whole number of seconds that is not negative.  A document gives it as a number (cut
down to whole seconds), as a numeral, or as hours, minutes and seconds with their units in this
order (`1h30m`, `45s`), each at most once and at least one of them.  A null or an empty text gives
none.

This is `parse_duration`.
-/

namespace Steward

/-- Why a document gives no duration. -/
inductive DurationError where
  | unreadable (value : Json)
  | negative (value : Json)
  | numeral (error : Text.NumeralError)
  | undefined
  | unbounded
  deriving DecidableEq, Repr

/-- The text of the error. -/
def DurationError.message : DurationError → String
  | .unreadable v => "invalid duration: " ++ v.literal
  | .negative v => "duration must not be negative: " ++ v.literal
  | .numeral e => e.message
  | .undefined => "cannot convert float NaN to integer"
  | .unbounded => "cannot convert float infinity to integer"

namespace Duration

/-- The units in the order in which they are written, with their seconds. -/
def units : List (Char × Nat) := [('h', 3600), ('m', 60), ('s', 1)]

/-- Numerals with their units, in the order of `units`; `none` if anything is left over. -/
def parts? : List (Char × Nat) → List Char → Option (List (List Char × Nat))
  | [], [] => some []
  | [], _ :: _ => none
  | (unit, seconds) :: rest, cs =>
    match cs.span Text.isDecimal with
    | ([], _) => parts? rest cs
    | (digits, c :: after) =>
      if c == unit then (parts? rest after).map ((digits, seconds) :: ·) else parts? rest cs
    | (_, []) => parts? rest cs

/-- The seconds of a numeral with a unit. -/
def numeral (digits : List Char) : Except DurationError Nat :=
  if Text.numeralLimit < digits.length then .error (.numeral (.tooLong digits.length))
  else .ok (Text.numeralValue digits)

/-- The sum of numerals with units. -/
def total : List (List Char × Nat) → Except DurationError Nat
  | [] => .ok 0
  | (digits, seconds) :: rest => do
    let n ← numeral digits
    let m ← total rest
    return n * seconds + m

/-- The duration that a text gives. -/
def ofText (s : String) : Except DurationError Nat :=
  let t := Text.stripBlank s
  let cs := t.toList
  if !cs.isEmpty && cs.all Text.isDigitLike then
    match Text.readInteger t with
    | .ok n => .ok n.toNat
    | .error e => .error (.numeral e)
  else
    match parts? units cs with
    | some (p :: ps) => total (p :: ps)
    | _ => .error (.unreadable (.string s))

/-- The duration that a whole number of seconds gives; `value` is the number as it was written. -/
def ofSeconds (value : Json) (n : Int) : Except DurationError (Option Nat) :=
  if n < 0 then .error (.negative value) else .ok (some n.toNat)

/-- The duration that a document gives, if it gives one (`parse_duration`). -/
def ofJson : Json → Except DurationError (Option Nat)
  | .null => .ok none
  | .string s => if s.isEmpty then .ok none else (ofText s).map some
  | .int n => ofSeconds (.int n) n
  | .float x =>
    if x.isNaN then .error .undefined
    else if x.isFinite then ofSeconds (.float x) x.truncate
    else .error .unbounded
  | v => .error (.unreadable v)

end Duration

end Steward
