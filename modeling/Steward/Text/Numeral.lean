import Steward.Text.Blank
import Steward.Text.Digit
import Steward.Text.Quoted

/-!
# Whole numbers written as text

A numeral is an optional sign and decimal digits of any script; single underscores may stand
between digits, and blanks around it all.  Numerals of more than `numeralLimit` digits are refused,
and this is noticed before anything that follows the digits.

This is `int` of a text.
-/

namespace Steward.Text

/-- Why a text is not a whole number. -/
inductive NumeralError where
  | malformed (text : String)
  | tooLong (digits : Nat)
  deriving DecidableEq, Repr

/-- The greatest number of digits that a numeral may have. -/
def numeralLimit : Nat := 4300

/-- The greatest length of a text that is quoted in the message of an error. -/
def quotationLimit : Nat := 200

/-- The text of the error; a long quotation breaks off. -/
def NumeralError.message : NumeralError → String
  | .malformed text =>
    "invalid literal for int() with base 10: " ++
      String.ofList ((quoted text).toList.take quotationLimit)
  | .tooLong n =>
    s!"Exceeds the limit ({numeralLimit} digits) for integer string conversion: value has {n} digits; use sys.set_int_max_str_digits() to increase the limit"

/-- Digits with single underscores between them; `none` if an underscore stands elsewhere.
`expectDigit` says that an underscore may not come next. -/
def ungroup? (expectDigit : Bool) : List Char → Option (List Char)
  | [] => if expectDigit then none else some []
  | '_' :: rest => if expectDigit then none else ungroup? true rest
  | c :: rest => (ungroup? false rest).map (c :: ·)

/-- Read a whole number. -/
def readInteger (text : String) : Except NumeralError Int :=
  let cs := trim isWhiteSpace text.toList
  let (negative, body) := match cs with
    | '-' :: rest => (true, rest)
    | '+' :: rest => (false, rest)
    | rest => (false, rest)
  let grouped := body.takeWhile fun c => isDecimal c || c == '_'
  match ungroup? true grouped with
  | none => .error (.malformed text)
  | some digits =>
    if numeralLimit < digits.length then .error (.tooLong digits.length)
    else if grouped.length < body.length then .error (.malformed text)
    else
      let n : Int := numeralValue digits
      .ok (if negative then -n else n)

end Steward.Text
