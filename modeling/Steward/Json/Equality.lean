import Steward.Json.Basic

/-!
# Equality of documents

Two documents hold the same configuration when they are equal up to the order of keys and the way a
number is written: `1`, `1.0` and `true` are one number.

This is `==` between values.
-/

namespace Steward.Json

/-- A document that stands for a whole number. -/
def wholeValue? : Json → Option Int
  | .bool b => some (if b then 1 else 0)
  | .int n => some n
  | _ => none

/-- Equality of numbers, of texts and of nulls. -/
def sameScalar (a b : Json) : Bool :=
  match a, b with
  | .null, .null => true
  | .string s, .string t => s == t
  | .float x, .float y => x.sameValue y
  | .float x, b => match wholeValue? b with
    | some n => x.equalsInt n
    | none => false
  | a, .float y => match wholeValue? a with
    | some n => y.equalsInt n
    | none => false
  | a, b => match wholeValue? a, wholeValue? b with
    | some m, some n => m == n
    | _, _ => false

mutual

/-- Equality of documents. -/
def same : Json → Json → Bool
  | .array xs, b => match b with
    | .array ys => sameItems xs ys
    | _ => false
  | .object ms, b => match b with
    | .object ns => ms.length == ns.length && sameMembers ms ns
    | _ => false
  | a, b => sameScalar a b

/-- Item by item. -/
def sameItems : List Json → List Json → Bool
  | [], ys => ys.isEmpty
  | x :: xs, ys => match ys with
    | y :: ys => same x y && sameItems xs ys
    | [] => false

/-- Every member is found, with the same value, among `ns`. -/
def sameMembers : List (String × Json) → Members → Bool
  | [], _ => true
  | (k, v) :: rest, ns =>
    (match Table.get? ns k with
      | some w => same v w
      | none => false) && sameMembers rest ns

end

end Steward.Json
