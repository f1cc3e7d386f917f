import Steward.Decimal.Binary64
import Steward.Timestamp.Basic

/-!
# Points in time by count

A number counts the seconds since the start of 1970 in UTC, or milliseconds where its magnitude
exceeds 20 000 000 000.  The part of a binary number after the point is multiplied in binary
arithmetic, and goes to the nearest microsecond, a tie up; all else is exact.
-/

namespace Steward.Timestamp

/-- The first second of the year 0. -/
def firstSecond : Int := -62167219200

/-- The last second of the year 9999. -/
def lastSecond : Int := 253402300799

/-- The magnitude above which a number counts milliseconds. -/
def watershed : Nat := 20000000000

/-- The point in time that lies some microseconds after the start of 1970. -/
def ofMicroseconds (n : Int) : Except Problem Timestamp :=
  let seconds := n / 1000000
  if seconds < firstSecond then .error .tooEarly
  else if lastSecond < seconds then .error .tooLate
  else (ofUnix seconds (n % 1000000).toNat).ofCommonEra

/-- The number of microseconds that a count goes up by. -/
def unit (milliseconds : Bool) : Nat := if milliseconds then 1000 else 1000000

/-- The point in time that a whole number counts. -/
def ofCount (n : Int) : Except Problem Timestamp :=
  ofMicroseconds (n * unit (decide (watershed < n.natAbs)))

/-- A finite binary number counts milliseconds. -/
def countsMilliseconds (x : Binary64) : Bool := watershed * x.magnitude.2 < x.magnitude.1

/-- The point in time that a binary number counts. -/
def ofBinary (x : Binary64) : Except Problem Timestamp :=
  if x.isNaN then .error .undefined
  else if !x.isFinite then .error (if x.negative then .tooEarly else .tooLate)
  else
    let whole := x.floor
    let unit := unit (countsMilliseconds x)
    ofMicroseconds (whole * unit + ((x.minus whole).scale unit 1).nearestUp)

end Steward.Timestamp
