import Steward.Decimal.Binary64
import Steward.Text.Numeral

/-!
# Binary numbers as text

A number is an optional sign and then a word for infinity or for an undefined result, or decimal
digits of any script with at most one point among them and an exponent after them.  Blanks may
surround it, and an underscore may stand between two digits.

This is `float` of a text.
-/

namespace Steward.Binary64

/-- An ASCII digit. -/
def isDigit (c : Char) : Bool := '0' ≤ c && c ≤ '9'

/-- The ASCII digit of the same value, for a decimal digit of any script. -/
def asciiDigit (c : Char) : Char :=
  match Text.digitValue? c with
  | some n => Nat.digitChar n
  | none => c

/-- A numeral without underscores, each of which has to stand between two digits; `afterDigit` says
that a digit came last. -/
def withoutUnderscores? (afterDigit : Bool) : List Char → Option (List Char)
  | [] => some []
  | ['_'] => none
  | '_' :: c :: rest =>
    if afterDigit && isDigit c then (withoutUnderscores? true rest).map (c :: ·) else none
  | c :: rest => (withoutUnderscores? (isDigit c) rest).map (c :: ·)

/-- A sign, if there is one, and what follows it. -/
def signed : List Char → Bool × List Char
  | '-' :: rest => (true, rest)
  | '+' :: rest => (false, rest)
  | rest => (false, rest)

/-- The exponent that is all of the rest of a number; zero where nothing is left. -/
def exponent? : List Char → Option Int
  | [] => some 0
  | e :: rest =>
    let (negative, digits) := signed rest
    if (e == 'e' || e == 'E') && !digits.isEmpty && digits.all isDigit then
      let n : Int := Text.numeralValue digits
      some (if negative then -n else n)
    else none

/-- The number that digits, a point and an exponent denote. -/
def ofDigits? (negative : Bool) (cs : List Char) : Option Binary64 := do
  let (whole, rest) := cs.span isDigit
  let (decimals, rest) := match rest with
    | '.' :: rest => rest.span isDigit
    | rest => ([], rest)
  if whole.isEmpty && decimals.isEmpty then none
  else
    let n ← exponent? rest
    return ofDecimal negative (Text.numeralValue (whole ++ decimals)) (n - decimals.length)

/-- The number that a text denotes. -/
def ofText? (s : String) : Option Binary64 := do
  let cs := (Text.trim Text.isWhiteSpace s.toList).map asciiDigit
  let (negative, body) := signed (← withoutUnderscores? false cs)
  match String.ofList (body.map Char.toLower) with
  | "inf" | "infinity" => return infinity negative
  | "nan" => return nan
  | _ => ofDigits? negative body

end Steward.Binary64
