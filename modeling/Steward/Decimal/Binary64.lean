/-!
# Binary floating-point numbers

A document's number with a fraction or an exponent is a binary64 number: 53 significant bits and an
exponent of two.  It is held as its bit pattern, so that two numbers are equal exactly when their
patterns are, and `0.0` and `-0.0` stay apart.  What is done with such numbers is done in exact
integer arithmetic: they are read (`ofDecimal`, rounded to nearest, ties to even), compared with
whole numbers and cut down to them; and where a count of seconds is broken up, they are scaled
(`scale`) and a whole number is taken off (`minus`), each result rounded once.

A finite number is `significand · 2 ^ exponent`, with its sign.
-/

namespace Steward

/-- A binary64 number by its bit pattern. -/
structure Binary64 where
  bits : UInt64
  deriving DecidableEq, Repr, Inhabited

namespace Binary64

/-! ## 1. The parts of a pattern -/

/-- The sign bit. -/
def negative (x : Binary64) : Bool := Nat.pow 2 63 ≤ x.bits.toNat

/-- The eleven bits of the exponent as they are stored. -/
def biasedExponent (x : Binary64) : Nat := x.bits.toNat / Nat.pow 2 52 % 2048

/-- The fifty-two stored bits of the significand. -/
def fraction (x : Binary64) : Nat := x.bits.toNat % Nat.pow 2 52

/-- Neither infinite nor undefined. -/
def isFinite (x : Binary64) : Bool := x.biasedExponent != 2047

/-- An undefined result. -/
def isNaN (x : Binary64) : Bool := x.biasedExponent == 2047 && x.fraction != 0

/-- The significand of a finite number, with the bit that is not stored. -/
def significand (x : Binary64) : Nat :=
  if x.biasedExponent = 0 then x.fraction else Nat.pow 2 52 + x.fraction

/-- The power of two that the significand is multiplied by. -/
def exponent (x : Binary64) : Int := (max x.biasedExponent 1 : Nat) - 1075

/-- The magnitude of a finite number as a quotient. -/
def magnitude (x : Binary64) : Nat × Nat :=
  if 0 ≤ x.exponent then (x.significand * Nat.pow 2 x.exponent.toNat, 1)
  else (x.significand, Nat.pow 2 (-x.exponent).toNat)

/-! ## 2. Rounding -/

/-- Put a sign on a pattern. -/
def withSign (negative : Bool) (pattern : Nat) : Binary64 :=
  ⟨UInt64.ofNat (if negative then Nat.pow 2 63 + pattern else pattern)⟩

/-- The pattern of infinity. -/
def infinityPattern : Nat := 2047 * Nat.pow 2 52

/-- Infinity with a sign. -/
def infinity (negative : Bool) : Binary64 := withSign negative infinityPattern

/-- A pattern for an undefined result. -/
def nan : Binary64 := withSign false (infinityPattern + Nat.pow 2 51)

/-- The whole number nearest to `num / den`, a tie going to the even one. -/
def nearestEven (num den : Nat) : Nat :=
  let q := num / den
  let r := num % den
  if den < 2 * r || (2 * r == den && q % 2 == 1) then q + 1 else q

/-- `num / den` in units of `2 ^ e`, rounded. -/
def inUnits (num den : Nat) (e : Int) : Nat :=
  if 0 ≤ e then nearestEven num (den * Nat.pow 2 e.toNat)
  else nearestEven (num * Nat.pow 2 (-e).toNat) den

/-- The number nearest to `num / den`: the exponent is the one that leaves 53 bits before the
point, but never below that of the smallest number. -/
def ofRatio (negative : Bool) (num den : Nat) : Binary64 :=
  if num = 0 then withSign negative 0
  else
    let rough : Int := (Nat.log2 num : Int) - Nat.log2 den - 52
    let scaled (e : Int) : Bool :=
      if 0 ≤ e then num < den * Nat.pow 2 52 * Nat.pow 2 e.toNat
      else num * Nat.pow 2 (-e).toNat < den * Nat.pow 2 52
    let e : Int := max (if scaled rough then rough - 1 else rough) (-1074)
    let pattern := (e + 1074).toNat * Nat.pow 2 52 + inUnits num den e
    if infinityPattern ≤ pattern then infinity negative else withSign negative pattern

/-- The number nearest to `digits · 10 ^ exponent`.  Exponents far outside the range are settled
without computing the power. -/
def ofDecimal (negative : Bool) (digits : Nat) (exponent : Int) : Binary64 :=
  let size : Int := (Nat.toDigits 10 digits).length
  if digits = 0 ∨ size + exponent < -400 then withSign negative 0
  else if 400 < size + exponent then infinity negative
  else if 0 ≤ exponent then ofRatio negative (digits * Nat.pow 10 exponent.toNat) 1
  else ofRatio negative digits (Nat.pow 10 (-exponent).toNat)

/-- The number nearest to a whole number. -/
def ofInt (n : Int) : Binary64 := ofDecimal (decide (n < 0)) n.natAbs 0

/-! ## 3. Arithmetic -/

/-- The number nearest to `x · num / den`, of a finite `x`. -/
def scale (x : Binary64) (num den : Nat) : Binary64 :=
  ofRatio x.negative (x.magnitude.1 * num) (x.magnitude.2 * den)

/-- The number nearest to `x - n`, of a finite `x`. -/
def minus (x : Binary64) (n : Int) : Binary64 :=
  let (num, den) := x.magnitude
  let signed : Int := if x.negative then -num else num
  let rest := signed - n * den
  ofRatio (decide (rest < 0)) rest.natAbs den

/-! ## 4. Whole numbers -/

/-- A finite number without its fraction. -/
def truncate (x : Binary64) : Int :=
  let (num, den) := x.magnitude
  let n : Int := (num / den : Nat)
  if x.negative then -n else n

/-- The greatest whole number that is not above a finite number. -/
def floor (x : Binary64) : Int :=
  let (num, den) := x.magnitude
  if x.negative then -((num + den - 1) / den : Nat) else (num / den : Nat)

/-- The whole number nearest to a finite number that is not negative, a tie going up. -/
def nearestUp (x : Binary64) : Nat :=
  let (num, den) := x.magnitude
  (2 * num + den) / (2 * den)

/-- A finite number without a fractional part. -/
def isWhole (x : Binary64) : Bool :=
  x.isFinite && x.magnitude.1 % x.magnitude.2 == 0

/-- The number is the whole number `n`. -/
def equalsInt (x : Binary64) (n : Int) : Bool := x.isWhole && x.truncate == n

/-- Equality of values: the zeros of either sign are equal, an undefined result differs from
itself. -/
def sameValue (x y : Binary64) : Bool :=
  !x.isNaN && !y.isNaN &&
    (x.bits == y.bits || (x.biasedExponent == 0 && x.fraction == 0 &&
      y.biasedExponent == 0 && y.fraction == 0))

end Binary64

end Steward
