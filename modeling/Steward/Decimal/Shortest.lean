import Steward.Decimal.Binary64

/-!
# The shortest decimal text of a binary number

Among the decimals that read back as a given binary64 number, take those with the fewest digits,
and of these the nearest.  A decimal reads back if it lies in the interval of reals that round to
the number; the ends belong to it exactly when the significand is even.  For `n` digits only two
decimals can do: the neighbours of the number on the grid of `n`-digit decimals.

Numbers from `0.0001` up to sixteen digits before the point are written positionally, always with a
point; all others with an exponent of at least two digits and its sign.

This is `repr` of a binary number.
-/

namespace Steward.Binary64

/-! ## 1. Digits -/

/-- A positive decimal `0.d₁d₂… · 10 ^ point`. -/
structure Digits where
  digits : List Char
  point : Int
  deriving Repr

/-- The decimal point of `num / den`: the least `k` with `num / den < 10 ^ k`. -/
def pointOf (num den : Nat) : Int :=
  if den ≤ num then (Nat.toDigits 10 (num / den)).length
  else
    let t := (Nat.toDigits 10 (den / num)).length
    if den ≤ num * Nat.pow 10 (t - 1) then 2 - (t : Int) else 1 - (t : Int)

/-- Scale a quotient to units of `10 ^ e`. -/
def tenths (num den : Nat) (e : Int) : Nat × Nat :=
  if 0 ≤ e then (num, den * Nat.pow 10 e.toNat) else (num * Nat.pow 10 (-e).toNat, den)

/-- The interval that rounds to a number, in quarters of its last place: `low`, the number itself
and `high`.  Below a power of two the numbers lie twice as dense. -/
def quarters (x : Binary64) : Nat × Nat × Nat :=
  let v := 4 * x.significand
  let step := if x.fraction = 0 ∧ 1 < x.biasedExponent then 1 else 2
  (v - step, v, v + 2)

/-- The neighbour of the number on the grid of `n` digits that reads back as it, the nearer one if
both do. -/
def onGrid? (x : Binary64) (point : Int) (n : Nat) : Option Nat :=
  let (low, v, high) := x.quarters
  let e : Int := x.exponent - 2
  let unit (q : Nat) : Nat × Nat :=
    tenths (if 0 ≤ e then q * Nat.pow 2 e.toNat else q)
      (if 0 ≤ e then 1 else Nat.pow 2 (-e).toNat) (point - n)
  let (num, den) := unit v
  let down := num / den
  let even := x.significand % 2 == 0
  let inside (c : Nat) : Bool :=
    let (lowNum, _) := unit low
    let (highNum, _) := unit high
    if even then lowNum ≤ c * den && c * den ≤ highNum
    else lowNum < c * den && c * den < highNum
  match inside down, inside (down + 1) with
  | true, false => some down
  | false, true => some (down + 1)
  | true, true => some (nearestEven num den)
  | false, false => none

/-- The shortest digits of a positive number, tried from `n` digits on. -/
def shortestFrom (x : Binary64) (point : Int) : Nat → Nat → Digits
  | 0, n => ⟨Nat.toDigits 10 ((x.onGrid? point n).getD 0), point⟩
  | fuel + 1, n =>
    match x.onGrid? point n with
    | some c =>
      let ds := Nat.toDigits 10 c
      -- a carry to the next power of ten moves the point
      ⟨ds, point + (ds.length - n)⟩
    | none => x.shortestFrom point fuel (n + 1)

/-- A count of digits at which the number itself lies on the grid. -/
def exactSize (x : Binary64) (point : Int) : Nat := (point - min x.exponent 0).toNat

/-- The shortest digits of a finite number other than zero, without final zeros. -/
def shortest (x : Binary64) : Digits :=
  let (num, den) := x.magnitude
  let point := pointOf num den
  let d := x.shortestFrom point (x.exactSize point) 1
  { d with digits := (d.digits.reverse.dropWhile (· == '0')).reverse }

/-! ## 2. Text -/

/-- The exponent of a number in scientific form: a sign and at least two digits. -/
def exponentText (e : Int) : List Char :=
  let ds := Nat.toDigits 10 e.natAbs
  (if e < 0 then '-' else '+') :: (if ds.length < 2 then '0' :: ds else ds)

/-- Positional or scientific form of the digits. -/
def Digits.text (d : Digits) : List Char :=
  let n : Int := d.digits.length
  if -4 < d.point ∧ d.point ≤ 16 then
    if d.point ≤ 0 then
      '0' :: '.' :: (List.replicate (-d.point).toNat '0' ++ d.digits)
    else if n ≤ d.point then
      d.digits ++ List.replicate (d.point - n).toNat '0' ++ ['.', '0']
    else
      d.digits.take d.point.toNat ++ '.' :: d.digits.drop d.point.toNat
  else
    let mantissa := match d.digits with
      | [] => ['0']
      | [c] => [c]
      | c :: rest => c :: '.' :: rest
    mantissa ++ 'e' :: exponentText (d.point - 1)

/-- The text of a finite number. -/
def finiteText (x : Binary64) : List Char :=
  (if x.negative then ['-'] else []) ++
    (if x.significand = 0 then ['0', '.', '0'] else x.shortest.text)

end Steward.Binary64
