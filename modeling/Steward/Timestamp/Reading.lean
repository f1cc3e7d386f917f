import Steward.Decimal.Word
import Steward.Text.Digit
import Steward.Timestamp.Count

/-!
# Points in time as text

Reading is wider than writing: the separator between date and time may be `T`, `t`, a blank or an
underscore; seconds are optional, digits beyond the sixth of a fraction are dropped; a date alone
stands for its midnight; and a numeral stands for the number that it denotes.  What is neither is
taken to be meant as a date, and the message says what is wrong with that date.

This is how the validation library reads a `datetime`.
-/

namespace Steward.Timestamp

/-! ## 1. Dates -/

/-- The value of an ASCII digit. -/
def digit? (c : Char) : Option Nat :=
  if '0' ≤ c ∧ c ≤ '9' then some (c.toNat - 0x30) else none

/-- Two digits. -/
def twoDigits? : List Char → Option (Nat × List Char)
  | a :: b :: rest => do return (10 * (← digit? a) + (← digit? b), rest)
  | _ => none

/-- One given character. -/
def expect? (c : Char) : List Char → Option (List Char)
  | d :: rest => if c == d then some rest else none
  | [] => none

/-- A part of a date, or the problem that there is none. -/
def orProblem {α : Type} (p : Problem) : Option α → Except Problem α
  | some a => .ok a
  | none => .error p

/-- The number of bytes of characters. -/
def byteCount (cs : List Char) : Nat := cs.foldr (fun c n => c.utf8Size + n) 0

/-- The number of bytes of a date. -/
def dateSize : Nat := 10

/-- A date `YYYY-MM-DD`, which may be one of the year zero. -/
def date (cs : List Char) : Except Problem ((Nat × Nat × Nat) × List Char) := do
  if byteCount cs < dateSize then throw .tooShort
  let (century, cs) ← orProblem .yearCharacter (twoDigits? cs)
  let (years, cs) ← orProblem .yearCharacter (twoDigits? cs)
  let cs ← orProblem .dateSeparator (expect? '-' cs)
  let (month, cs) ← orProblem .monthCharacter (twoDigits? cs)
  let cs ← orProblem .dateSeparator (expect? '-' cs)
  let (day, cs) ← orProblem .dayCharacter (twoDigits? cs)
  let year := 100 * century + years
  if month < 1 ∨ 12 < month then throw .monthRange
  if day < 1 ∨ daysInMonth year month < day then throw .dayRange
  return ((year, month, day), cs)

/-- The midnight of a date that stands alone. -/
def midnight (cs : List Char) : Except Problem Timestamp := do
  let ((year, month, day), rest) ← date cs
  if !rest.isEmpty then throw .extraCharacters
  ofCommonEra
    { year, month, day, hour := 0, minute := 0, second := 0, microsecond := 0, offset := none }

/-! ## 2. Dates with a time of day -/

/-- The fraction of a second in microseconds: at least one digit, and digits after the sixth are
dropped. -/
def fraction? : List Char → Option (Nat × List Char)
  | c :: rest =>
    if c == '.' || c == ',' then
      match rest.span fun d => '0' ≤ d && d ≤ '9' with
      | ([], _) => none
      | (ds, rest) =>
        let kept := ds.take 6
        some (Text.numeralValue kept * Nat.pow 10 (6 - kept.length), rest)
    else some (0, c :: rest)
  | [] => some (0, [])

/-- Seconds and their fraction after minutes; both are zero where no colon follows. -/
def seconds? : List Char → Option ((Nat × Nat) × List Char)
  | ':' :: rest => do
    let (second, rest) ← twoDigits? rest
    let (micro, rest) ← fraction? rest
    return ((second, micro), rest)
  | rest => some ((0, 0), rest)

/-- The offset that ends a timestamp. -/
def offset? : List Char → Option (Option Int)
  | [] => some none
  | [c] => if c == 'Z' || c == 'z' then some (some 0) else none
  | sign :: rest => do
    let negative ←
      if sign == '+' then some false
      else if sign == '-' || sign.toNat == 0x2212 then some true
      else none
    let (hours, rest) ← twoDigits? rest
    let rest := match rest with
      | ':' :: rest => rest
      | rest => rest
    let (minutes, rest) ← twoDigits? rest
    if !rest.isEmpty || 60 ≤ minutes then none
    else
      let o : Int := hours * 3600 + minutes * 60
      some (some (if negative then -o else o))

/-- A date and, after a separator, a time of day. -/
def ofCalendar? (cs : List Char) : Option Timestamp :=
  match date cs with
  | .ok ((year, month, day), sep :: rest) =>
    if sep == 'T' || sep == 't' || sep == ' ' || sep == '_' then do
      let (hour, rest) ← twoDigits? rest
      let (minute, rest) ← twoDigits? (← expect? ':' rest)
      let ((second, microsecond), rest) ← seconds? rest
      let offset ← offset? rest
      let t : Timestamp := { year, month, day, hour, minute, second, microsecond, offset }
      if t.TimeValid then some t else none
    else none
  | _ => none

/-! ## 3. Numerals -/

/-- A number of seconds or milliseconds that is written as text. -/
inductive Numeral where
  | whole (n : Int)
  | binary (x : Binary64)
  deriving DecidableEq, Repr

/-- Digits at the front. -/
def digits (cs : List Char) : List Char × List Char := cs.span fun c => '0' ≤ c && c ≤ '9'

/-- The exponent that ends a numeral; there need not be one. -/
def exponent? : List Char → Option Int
  | [] => some 0
  | e :: rest =>
    if e == 'e' || e == 'E' then
      let (negative, body) := match rest with
        | '-' :: body => (true, body)
        | '+' :: body => (false, body)
        | body => (false, body)
      match digits body with
      | ([], _) | (_, _ :: _) => none
      | (ds, []) =>
        let n : Int := Text.numeralValue ds
        some (if negative then -n else n)
    else none

/-- A sign and digits, and perhaps a point with a fraction and an exponent.  Only a numeral with a
point has an exponent, and the digits before the point denote a number that 64 bits hold. -/
def numeral? (cs : List Char) : Option Numeral :=
  let (negative, body) := match cs with
    | '-' :: rest => (true, rest)
    | '+' :: rest => (false, rest)
    | rest => (false, rest)
  let (whole, rest) := digits body
  let n : Int := Text.numeralValue whole
  let n := if negative then -n else n
  if ¬ FitsWord n then none
  else
    match rest with
    | [] => if whole.isEmpty then none else some (.whole n)
    | '.' :: rest =>
      let (fraction, rest) := digits rest
      let ds := whole ++ fraction
      if ds.isEmpty then none
      else do
        let e ← exponent? rest
        return .binary (Binary64.ofDecimal negative (Text.numeralValue ds) (e - fraction.length))
    | _ => none

/-! ## 4. The whole -/

/-- The point in time that a text names. -/
def ofText (s : String) : Except Problem Timestamp :=
  let cs := s.toList
  match ofCalendar? cs with
  | some t => t.ofCommonEra
  | none =>
    match numeral? cs with
    | some (.whole n) => ofCount n
    | some (.binary x) =>
      match ofBinary x with
      | .ok t => .ok t
      | .error .yearZero => .error .yearZero
      | .error _ => midnight cs
    | none => midnight cs

end Steward.Timestamp
