import Steward.Text.Quoted

/-!
# UTF-8

Characters as one to four bytes.  Decoding refuses bytes that begin no character, characters that
are cut short, overlong forms and surrogates, and says where.
-/

namespace Steward.Utf8

/-! ## 1. Encoding -/

/-- The byte of a number below 256. -/
def byte (n : Nat) : UInt8 := UInt8.ofNat n

/-- The bytes of a character. -/
def encodeChar (c : Char) : List UInt8 :=
  let n := c.toNat
  if n < 0x80 then [byte n]
  else if n < 0x800 then [byte (0xC0 + n / 0x40), byte (0x80 + n % 0x40)]
  else if n < 0x10000 then
    [byte (0xE0 + n / 0x1000), byte (0x80 + n / 0x40 % 0x40), byte (0x80 + n % 0x40)]
  else
    [byte (0xF0 + n / 0x40000), byte (0x80 + n / 0x1000 % 0x40), byte (0x80 + n / 0x40 % 0x40),
      byte (0x80 + n % 0x40)]

/-- The bytes of a text. -/
def encode (cs : List Char) : List UInt8 := cs.flatMap encodeChar

/-! ## 2. Decoding -/

/-- What is wrong with bytes. -/
inductive Reason where
  | startByte
  | continuation
  | cutShort
  deriving DecidableEq, Repr

/-- Bytes that are no character: where they begin, the first of them, and how many they are. -/
structure Malformed where
  reason : Reason
  position : Nat
  first : UInt8
  length : Nat
  deriving DecidableEq, Repr

def Reason.words : Reason → String
  | .startByte => "invalid start byte"
  | .continuation => "invalid continuation byte"
  | .cutShort => "unexpected end of data"

/-- The text of the error. -/
def Malformed.message (m : Malformed) : String :=
  let place :=
    if m.length = 1 then
      s!"byte 0x{String.ofList (Text.hexDigits 2 m.first.toNat)} in position {m.position}"
    else s!"bytes in position {m.position}-{m.position + m.length - 1}"
  "'utf-8' codec can't decode " ++ place ++ ": " ++ m.reason.words

/-- The bytes that may follow a first byte: how many, and the range of the next one.  The range
excludes overlong forms, surrogates and numbers beyond Unicode. -/
def followers? (b : UInt8) : Option (Nat × Nat × Nat) :=
  let n := b.toNat
  if 0xC2 ≤ n ∧ n ≤ 0xDF then some (1, 0x80, 0xBF)
  else if n = 0xE0 then some (2, 0xA0, 0xBF)
  else if n = 0xED then some (2, 0x80, 0x9F)
  else if 0xE1 ≤ n ∧ n ≤ 0xEF then some (2, 0x80, 0xBF)
  else if n = 0xF0 then some (3, 0x90, 0xBF)
  else if 0xF1 ≤ n ∧ n ≤ 0xF3 then some (3, 0x80, 0xBF)
  else if n = 0xF4 then some (3, 0x80, 0x8F)
  else none

/-- The part of the first byte that belongs to the number of the character. -/
def lead (b : UInt8) (following : Nat) : Nat :=
  if following = 1 then b.toNat - 0xC0
  else if following = 2 then b.toNat - 0xE0
  else b.toNat - 0xF0

/-- A byte that belongs to a character but does not begin it. -/
def isContinuation (b : UInt8) : Bool := 0x80 ≤ b.toNat && b.toNat ≤ 0xBF

/-- The number that `following` more bytes complete; on failure the reason and the number of bytes
that were taken before it. -/
def tail : Nat → Nat → List UInt8 → Except (Reason × Nat) (Nat × List UInt8)
  | 0, n, bs => .ok (n, bs)
  | _ + 1, _, [] => .error (.cutShort, 0)
  | k + 1, n, b :: bs =>
    if isContinuation b then
      match tail k (n * 0x40 + (b.toNat - 0x80)) bs with
      | .ok r => .ok r
      | .error (reason, taken) => .error (reason, taken + 1)
    else .error (.continuation, 0)

/-- The character that begins a sequence of bytes, and the bytes after it. -/
def decodeChar (b : UInt8) (bs : List UInt8) : Except (Reason × Nat) (Nat × List UInt8) :=
  if b.toNat < 0x80 then .ok (b.toNat, bs)
  else
    match followers? b with
    | none => .error (.startByte, 0)
    | some (following, low, high) =>
      match bs with
      | [] => .error (.cutShort, 0)
      | next :: _ =>
        if low ≤ next.toNat ∧ next.toNat ≤ high then tail following (lead b following) bs
        else .error (.continuation, 0)

/-- Decode from a position on; `fuel` bounds the number of characters. -/
def decodeFrom : Nat → Nat → List UInt8 → Except Malformed (List Char)
  | 0, _, _ => .ok []
  | _ + 1, _, [] => .ok []
  | fuel + 1, position, b :: bs =>
    match decodeChar b bs with
    | .error (reason, taken) => .error ⟨reason, position, b, taken + 1⟩
    | .ok (n, rest) =>
      (decodeFrom fuel (position + (bs.length + 1 - rest.length)) rest).map (Char.ofNat n :: ·)

/-- The text of bytes. -/
def decode (bs : List UInt8) : Except Malformed (List Char) := decodeFrom bs.length 0 bs

end Steward.Utf8
