/-!
# Points in time

A timestamp is a date and a time of day to the microsecond, with an offset from UTC or without one.
It is written with a `T` between date and time, six digits of a second only where they are not
zero, and `Z` for an offset of zero.
-/

namespace Steward

/-- A date and time of day with an offset from UTC in seconds, if it is known. -/
structure Timestamp where
  year : Nat
  month : Nat
  day : Nat
  hour : Nat
  minute : Nat
  second : Nat
  microsecond : Nat
  offset : Option Int
  deriving DecidableEq, Repr, Inhabited

namespace Timestamp

/-! ## 1. The calendar -/

/-- A year with a 29th of February. -/
def isLeap (year : Nat) : Bool := year % 4 == 0 && (year % 100 != 0 || year % 400 == 0)

/-- The number of days of a month. -/
def daysInMonth (year month : Nat) : Nat :=
  if month == 2 then (if isLeap year then 29 else 28)
  else if month == 4 || month == 6 || month == 9 || month == 11 then 30 else 31

/-- A time of day, and an offset of less than a day in whole minutes. -/
def TimeValid (t : Timestamp) : Prop :=
  t.hour < 24 ∧ t.minute < 60 ∧ t.second < 60 ∧ t.microsecond < 1000000 ∧
  ∀ o ∈ t.offset, o.natAbs < 86400 ∧ o.natAbs % 60 = 0

instance (t : Timestamp) : Decidable t.TimeValid := by
  unfold TimeValid
  cases t.offset <;> simp <;> infer_instance

/-- The fields name a point in time: a date from year 1 to year 9999, and a time of day. -/
def Valid (t : Timestamp) : Prop :=
  (1 ≤ t.year ∧ t.year ≤ 9999) ∧ (1 ≤ t.month ∧ t.month ≤ 12) ∧
  (1 ≤ t.day ∧ t.day ≤ daysInMonth t.year t.month) ∧ t.TimeValid

instance (t : Timestamp) : Decidable t.Valid := by
  unfold Valid
  infer_instance

/-- The date that lies `days` days after the first of January 1970.  Years are counted from March
in eras of 400, so that the leap day comes last. -/
def dateOfDays (days : Int) : Nat × Nat × Nat :=
  let z := days + 719468
  let era := z / 146097
  let dayOfEra := (z % 146097).toNat
  let yearOfEra := (dayOfEra - dayOfEra / 1460 + dayOfEra / 36524 - dayOfEra / 146096) / 365
  let dayOfYear := dayOfEra - (365 * yearOfEra + yearOfEra / 4 - yearOfEra / 100)
  let shifted := (5 * dayOfYear + 2) / 153
  let day := dayOfYear - (153 * shifted + 2) / 5 + 1
  let month := if shifted < 10 then shifted + 3 else shifted - 9
  let year := (yearOfEra + era * 400 + (if month ≤ 2 then 1 else 0)).toNat
  (year, month, day)

/-- The point in UTC that lies `seconds` seconds and `microseconds` microseconds after the start of
1970. -/
def ofUnix (seconds : Int) (microseconds : Nat) : Timestamp :=
  let (year, month, day) := dateOfDays (seconds / 86400)
  let ofDay := (seconds % 86400).toNat
  { year, month, day, hour := ofDay / 3600, minute := ofDay / 60 % 60, second := ofDay % 60,
    microsecond := microseconds, offset := some 0 }

/-! ## 2. Writing -/

/-- Decimal digits of `n`, at least `width` of them. -/
def padded (width n : Nat) : List Char :=
  let ds := Nat.toDigits 10 n
  List.replicate (width - ds.length) '0' ++ ds

/-- The offset from UTC. -/
def offsetText : Option Int → List Char
  | none => []
  | some o =>
    if o = 0 then ['Z']
    else
      let minutes := o.natAbs / 60
      (if o < 0 then '-' else '+') :: padded 2 (minutes / 60) ++ ':' :: padded 2 (minutes % 60)

/-- The characters of a timestamp. -/
def chars (t : Timestamp) : List Char :=
  padded 4 t.year ++ '-' :: padded 2 t.month ++ '-' :: padded 2 t.day ++ 'T' ::
  padded 2 t.hour ++ ':' :: padded 2 t.minute ++ ':' :: padded 2 t.second ++
  (if t.microsecond = 0 then [] else '.' :: padded 6 t.microsecond) ++ offsetText t.offset

/-- The text of a timestamp. -/
def text (t : Timestamp) : String := String.ofList t.chars

/-! ## 3. What may be wrong -/

/-- Why a text or a number names no point in time. -/
inductive Problem where
  | tooShort
  | yearCharacter
  | monthCharacter
  | dayCharacter
  | dateSeparator
  | monthRange
  | dayRange
  | extraCharacters
  /-- The year before the first one can be named, but there is no such year. -/
  | yearZero
  | tooEarly
  | tooLate
  | undefined
  deriving DecidableEq, Repr

/-- A problem in words. -/
def Problem.words : Problem → String
  | .tooShort => "input is too short"
  | .yearCharacter => "invalid character in year"
  | .monthCharacter => "invalid character in month"
  | .dayCharacter => "invalid character in day"
  | .dateSeparator => "invalid date separator, expected `-`"
  | .monthRange => "month value is outside expected range of 1-12"
  | .dayRange => "day value is outside expected range"
  | .extraCharacters => "unexpected extra characters at the end of the input"
  | .yearZero => "year 0 is out of range"
  | .tooEarly => "dates before 0000 are not supported as unix timestamps"
  | .tooLate => "dates after 9999 are not supported as unix timestamps"
  | .undefined => "NaN values not permitted"

/-- A timestamp that may be one of the year zero. -/
def ofCommonEra (t : Timestamp) : Except Problem Timestamp :=
  if t.year = 0 then .error .yearZero else .ok t

end Timestamp

end Steward
