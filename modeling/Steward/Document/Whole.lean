import Steward.Decimal.Word
import Steward.Document.Violation
import Steward.Text.Blank
import Steward.Text.Numeral

/-!
# Whole numbers in documents

A whole number may be written as text, with blanks around it, a sign, single underscores between its
digits, and a point with zeros only after them.  Zeros in front are skipped together with all
underscores between them, and a minus may still follow these; what is left has no zero in front.  A
numeral is taken as too long, and not as unreadable, only where it is written in digits alone.

This is how the validation library reads an `int` from a text, in its lax mode.
-/

namespace Steward.Whole

/-- An ASCII digit. -/
def isDigit (c : Char) : Bool := '0' ≤ c && c ≤ '9'

/-- A plain run of digits after an optional minus, with no zero in front, that is too long. -/
def isOversized (cs : List Char) : Bool :=
  let digits := ((match cs with
    | '-' :: rest => rest
    | cs => cs).takeWhile isDigit)
  digits.head? != some '0' && Text.numeralLimit < digits.length

/-- What follows zeros and underscores; `last` is the last one of them. -/
def afterZeros? (last : Char) : List Char → Option (List Char)
  | [] => some [last]
  | c :: rest =>
    if c == '0' || c == '_' then afterZeros? c rest
    else if c == '.' then some (last :: c :: rest)
    else if isDigit c || c == '-' then some (c :: rest)
    else none

/-- A numeral without the zeros in front of it. -/
def withoutZeros? : List Char → Option (List Char)
  | '0' :: rest => afterZeros? '0' rest
  | c :: rest => if isDigit c then some (c :: rest) else none
  | [] => none

/-- A numeral without a point and zeros at its end. -/
def withoutFraction? (cs : List Char) : Option (List Char) :=
  match cs.span (· != '.') with
  | (whole, []) => some whole
  | (whole, _ :: zeros) => if !zeros.isEmpty && zeros.all (· == '0') then some whole else none

/-- A numeral without underscores; none of them may stand at an end or beside another one. -/
def withoutUnderscores? (cs : List Char) : Option (List Char) := Text.ungroup? true cs

/-- The number that a sign and digits denote, with no zero in front of others. -/
def plain? (cs : List Char) : Option Int :=
  let (negative, digits) := match cs with
    | '-' :: rest => (true, rest)
    | rest => (false, rest)
  if digits.isEmpty || !digits.all isDigit || Text.numeralLimit < digits.length then none
  else if digits.head? == some '0' && digits.length != 1 then none
  else
    let n : Int := Text.numeralValue digits
    some (if negative then -n else n)

/-- The number that a numeral without blanks around it denotes. -/
def ofChars? (cs : List Char) : Option Int := do
  let (negative, body) := match cs with
    | '-' :: rest => (true, rest)
    | '+' :: rest => (false, rest)
    | rest => (false, rest)
  let cs ← withoutUnderscores? (← withoutFraction? (← withoutZeros? body))
  plain? (if negative then '-' :: cs else cs)

/-- A whole number that is written as text. -/
def ofText (s : String) : Checked Int :=
  let cs := s.toList
  if isOversized cs then .fault .oversizedWhole
  else
    match ofChars? (Text.trim Text.isWhiteSpace cs) with
    | some n => .valid n
    | none => .fault .unreadableWhole

/-- A whole number that is written as a binary number. -/
def ofBinary (x : Binary64) : Checked Int :=
  if !x.isFinite then .fault .notFinite
  else if !x.isWhole then .fault .fractionalWhole
  else if x.truncate.natAbs < wordBound then .valid x.truncate
  else .fault .oversizedWhole

end Steward.Whole
