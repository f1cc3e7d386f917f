/-!
# Base64

Three bytes as four characters of an alphabet of 64, the last group padded with `=`.  Decoding
refuses characters outside the alphabet and whatever follows a complete padding; padding after a
complete group is passed over.

This is `b64decode`, with `validate`.
-/

namespace Steward.Base64

/-! ## 1. The alphabet -/

/-- The character of six bits. -/
def symbol (n : Nat) : Char :=
  if n < 26 then Char.ofNat (0x41 + n)
  else if n < 52 then Char.ofNat (0x61 + (n - 26))
  else if n < 62 then Char.ofNat (0x30 + (n - 52))
  else if n = 62 then '+' else '/'

/-- The six bits of a character. -/
def value? (c : Char) : Option Nat :=
  let n := c.toNat
  if 0x41 ≤ n ∧ n ≤ 0x5A then some (n - 0x41)
  else if 0x61 ≤ n ∧ n ≤ 0x7A then some (n - 0x61 + 26)
  else if 0x30 ≤ n ∧ n ≤ 0x39 then some (n - 0x30 + 52)
  else if c = '+' then some 62
  else if c = '/' then some 63
  else none

/-! ## 2. Encoding -/

/-- The characters of bytes. -/
def encode : List UInt8 → List Char
  | [] => []
  | [a] => [symbol (a.toNat / 4), symbol (a.toNat % 4 * 16), '=', '=']
  | [a, b] =>
    [symbol (a.toNat / 4), symbol (a.toNat % 4 * 16 + b.toNat / 16),
      symbol (b.toNat % 16 * 4), '=']
  | a :: b :: c :: rest =>
    symbol (a.toNat / 4) :: symbol (a.toNat % 4 * 16 + b.toNat / 16) ::
      symbol (b.toNat % 16 * 4 + c.toNat / 64) :: symbol (c.toNat % 64) :: encode rest

/-! ## 3. Decoding -/

/-- Why characters are no encoding. -/
inductive Error where
  | notAscii
  | leadingPadding
  | excessData
  | foreignCharacter
  | brokenPadding
  /-- One character more than complete groups, of this many characters. -/
  | dangling (characters : Nat)
  | missingPadding
  deriving DecidableEq, Repr

/-- The text of the error. -/
def Error.message : Error → String
  | .notAscii => "string argument should contain only ASCII characters"
  | .leadingPadding => "Leading padding not allowed"
  | .excessData => "Excess data after padding"
  | .foreignCharacter => "Only base64 data is allowed"
  | .brokenPadding => "Discontinuous padding not allowed"
  | .dangling n =>
    s!"Invalid base64-encoded string: number of data characters ({n}) cannot be 1 more than a multiple of 4"
  | .missingPadding => "Incorrect padding"

/-- The place within a group of four characters, with the bits that are not yet part of a byte. -/
structure Group where
  place : Nat := 0
  bits : Nat := 0
  /-- Padding characters since the last character of the alphabet. -/
  pads : Nat := 0
  padded : Bool := false
  /-- The number of bytes so far. -/
  written : Nat := 0
  deriving DecidableEq, Repr

/-- Six more bits: the byte that they complete, if they do. -/
def Group.add (g : Group) (v : Nat) : Option UInt8 × Group :=
  match g.place with
  | 0 => (none, { g with place := 1, bits := v, pads := 0 })
  | 1 => (some (UInt8.ofNat (g.bits * 4 + v / 16)),
      { g with place := 2, bits := v % 16, pads := 0, written := g.written + 1 })
  | 2 => (some (UInt8.ofNat (g.bits * 16 + v / 4)),
      { g with place := 3, bits := v % 4, pads := 0, written := g.written + 1 })
  | _ => (some (UInt8.ofNat (g.bits * 64 + v)),
      { g with place := 0, bits := 0, pads := 0, written := g.written + 1 })

/-- Decode what follows a group in progress. -/
def decodeFrom (g : Group) : List Char → Except Error (List UInt8)
  | [] =>
    if g.place = 0 then .ok []
    else if g.place = 1 then .error (.dangling (g.written / 3 * 4 + 1))
    else .error .missingPadding
  | c :: rest =>
    if c = '=' then
      if 2 ≤ g.place ∧ 4 ≤ g.place + (g.pads + 1) then
        if rest.isEmpty then .ok [] else .error .excessData
      else
        decodeFrom { g with padded := true, pads := if 2 ≤ g.place then g.pads + 1 else g.pads } rest
    else
      match value? c with
      | none => .error .foreignCharacter
      | some v =>
        if g.padded then .error .brokenPadding
        else
          let (b, g) := g.add v
          (decodeFrom g rest).map (b.toList ++ ·)

/-- The bytes of characters. -/
def decode (cs : List Char) : Except Error (List UInt8) :=
  if cs.any (0x80 ≤ ·.toNat) then .error .notAscii
  else if cs.head? = some '=' then .error .leadingPadding
  else decodeFrom {} cs

end Steward.Base64
