import Steward.Json.Basic
import Steward.Text.Numeral

/-!
# Reading documents

`Json.parse` reads one document that fills the text.  Every refusal names the first place where
reading cannot go on, as a line, a column and a count of characters.  The numerals `NaN`,
`Infinity` and `-Infinity` are numbers; a key that is written twice keeps its first place and its
last value.  Lists and objects may be nested as far as there is room (`Room.reading`).  A surrogate
that is not one of a pair is refused, where `json.loads` would go on with a text that is no sequence
of Unicode scalar values: such texts are outside of what documents are here.

The functions below take the characters that are left and return what is left after them; the
fuel is a bound on twice their number, so that it never runs out.  The room is the number of levels
that may still be opened.

This is `json.loads`, and the words of a refusal are those of its `JSONDecodeError`.
-/

namespace Steward.Json

/-! ## 1. Refusals -/

/-- What is wrong at a place of the text. -/
inductive Problem where
  | noValue
  | noPropertyName
  | noColon
  | noComma
  | extraData
  | unterminatedString
  | controlCharacter
  | badEscape
  | badUnitEscape
  /-- A surrogate that is not one of a pair. -/
  | unpairedSurrogate
  | byteOrderMark
  | longNumeral (digits : Nat)
  | deepList
  | deepObject
  deriving DecidableEq, Repr

/-- A problem and the characters from its place on. -/
structure Refusal where
  problem : Problem
  rest : List Char
  deriving DecidableEq, Repr

/-- A problem in words. -/
def Problem.words : Problem → String
  | .noValue => "Expecting value"
  | .noPropertyName => "Expecting property name enclosed in double quotes"
  | .noColon => "Expecting ':' delimiter"
  | .noComma => "Expecting ',' delimiter"
  | .extraData => "Extra data"
  | .unterminatedString => "Unterminated string starting at"
  | .controlCharacter => "Invalid control character at"
  | .badEscape => "Invalid \\escape"
  | .badUnitEscape => "Invalid \\uXXXX escape"
  | .unpairedSurrogate => "Unpaired surrogate"
  | .byteOrderMark => "Unexpected UTF-8 BOM (decode using utf-8-sig)"
  | .longNumeral n => (Text.NumeralError.tooLong n).message
  | .deepList => "maximum recursion depth exceeded while decoding a JSON array from a unicode string"
  | .deepObject =>
    "maximum recursion depth exceeded while decoding a JSON object from a unicode string"

/-- The message says where the problem is. -/
def Problem.isPlaced : Problem → Bool
  | .longNumeral _ | .deepList | .deepObject => false
  | _ => true

/-- The message of a refusal of the document `s`. -/
def Refusal.message (s : String) (r : Refusal) : String :=
  if r.problem.isPlaced then
    let before := s.toList.take (s.toList.length - r.rest.length)
    let line := before.count '\n' + 1
    let column := (before.reverse.takeWhile (· != '\n')).length + 1
    s!"{r.problem.words}: line {line} column {column} (char {before.length})"
  else r.problem.words

/-! ## 2. Blanks, strings and numbers -/

/-- The blanks between the parts of a document. -/
def isGap (c : Char) : Bool := c == ' ' || c == '\t' || c == '\n' || c == '\r'

/-- Skip blanks. -/
def skipGap (cs : List Char) : List Char := cs.dropWhile isGap

/-- The value of a hexadecimal digit. -/
def hexValue? (c : Char) : Option Nat :=
  if '0' ≤ c ∧ c ≤ '9' then some (c.toNat - 0x30)
  else if 'a' ≤ c ∧ c ≤ 'f' then some (c.toNat - 0x57)
  else if 'A' ≤ c ∧ c ≤ 'F' then some (c.toNat - 0x37)
  else none

/-- Four hexadecimal digits that something follows. -/
def unit? : List Char → Option (Nat × List Char)
  | a :: b :: c :: d :: rest =>
    if rest.isEmpty then none
    else do
      let a ← hexValue? a
      let b ← hexValue? b
      let c ← hexValue? c
      let d ← hexValue? d
      return (((a * 16 + b) * 16 + c) * 16 + d, rest)
  | _ => none

/-- The character of an escape other than a unit. -/
def escaped? : Char → Option Char
  | '"' => some '"'
  | '\\' => some '\\'
  | '/' => some '/'
  | 'b' => some (Char.ofNat 0x08)
  | 'f' => some (Char.ofNat 0x0C)
  | 'n' => some '\n'
  | 'r' => some '\r'
  | 't' => some '\t'
  | _ => none

/-- The character of a unit that stands alone, with `rest` after it; a surrogate is none. -/
def loneUnit (n : Nat) (afterU rest : List Char) : Except Refusal (Char × List Char) :=
  if 0xD800 ≤ n ∧ n < 0xE000 then .error ⟨.unpairedSurrogate, 'u' :: afterU⟩
  else .ok (Char.ofNat n, rest)

/-- What follows `\u`: one unit, or two that form a pair. -/
def unitEscape? (afterU : List Char) : Except Refusal (Char × List Char) :=
  match unit? afterU with
  | none => .error ⟨.badUnitEscape, 'u' :: afterU⟩
  | some (n, rest) =>
    match rest with
    | '\\' :: 'u' :: more =>
      if 0xD800 ≤ n ∧ n < 0xDC00 ∧ 4 < more.length then
        match unit? more with
        | none => .error ⟨.badUnitEscape, 'u' :: more⟩
        | some (m, rest') =>
          if 0xDC00 ≤ m ∧ m < 0xE000 then
            .ok (Char.ofNat (0x10000 + (n - 0xD800) * 0x400 + (m - 0xDC00)), rest')
          else loneUnit n afterU rest
      else loneUnit n afterU rest
    | _ => loneUnit n afterU rest

/-- The characters of a string up to its closing quote; `start` is the text from its opening
quote on. -/
def parseString (start : List Char) : Nat → List Char → Except Refusal (List Char × List Char)
  | 0, _ => .error ⟨.unterminatedString, start⟩
  | fuel + 1, cs =>
    match cs with
    | [] => .error ⟨.unterminatedString, start⟩
    | '"' :: rest => .ok ([], rest)
    | '\\' :: rest =>
      match rest with
      | [] => .error ⟨.unterminatedString, start⟩
      | 'u' :: rest => do
        let (c, rest) ← unitEscape? rest
        let (s, rest) ← parseString start fuel rest
        return (c :: s, rest)
      | e :: rest' =>
        match escaped? e with
        | none => .error ⟨.badEscape, '\\' :: rest⟩
        | some c => do
          let (s, rest) ← parseString start fuel rest'
          return (c :: s, rest)
    | c :: rest =>
      if c.toNat < 0x20 then .error ⟨.controlCharacter, c :: rest⟩
      else do
        let (s, rest) ← parseString start fuel rest
        return (c :: s, rest)

/-- An ASCII digit. -/
def isAsciiDigit (c : Char) : Bool := '0' ≤ c && c ≤ '9'

/-- The digits after a point, if there are any. -/
def parseFraction : List Char → List Char × List Char
  | '.' :: rest =>
    match rest.span isAsciiDigit with
    | ([], _) => ([], '.' :: rest)
    | (ds, rest) => (ds, rest)
  | rest => ([], rest)

/-- The exponent after an `e`, if there is one. -/
def parseExponent (cs : List Char) : Option Int × List Char :=
  match cs with
  | e :: rest =>
    if e == 'e' || e == 'E' then
      let (negative, body) := match rest with
        | '-' :: body => (true, body)
        | '+' :: body => (false, body)
        | body => (false, body)
      match body.span isAsciiDigit with
      | ([], _) => (none, cs)
      | (ds, rest) =>
        let n : Int := Text.numeralValue ds
        (some (if negative then -n else n), rest)
    else (none, cs)
  | [] => (none, cs)

/-- A number after its sign. -/
def parseMagnitude (start : List Char) (negative : Bool) (cs : List Char) :
    Except Refusal (Json × List Char) :=
  let (whole, rest) : List Char × List Char := match cs with
    | '0' :: rest => (['0'], rest)
    | cs => cs.span isAsciiDigit
  if whole.isEmpty then .error ⟨.noValue, start⟩
  else
    let (fraction, rest) := parseFraction rest
    let (exponent, rest) := parseExponent rest
    if fraction.isEmpty && exponent.isNone then
      if Text.numeralLimit < whole.length then .error ⟨.longNumeral whole.length, start⟩
      else
        let n : Int := Text.numeralValue whole
        .ok (.int (if negative then -n else n), rest)
    else
      let e : Int := exponent.getD 0 - fraction.length
      .ok (.float (Binary64.ofDecimal negative (Text.numeralValue (whole ++ fraction)) e), rest)

/-! ## 3. Values -/

mutual

/-- One value. -/
def parseValue (room : Nat) : Nat → List Char → Except Refusal (Json × List Char)
  | 0, cs => .error ⟨.noValue, cs⟩
  | fuel + 1, cs =>
    match cs with
    | '"' :: rest => do
      let (s, rest) ← parseString cs (rest.length + 1) rest
      return (.string (String.ofList s), rest)
    | '{' :: rest =>
      if room = 0 then .error ⟨.deepObject, cs⟩
      else match skipGap rest with
        | '}' :: rest => .ok (.object [], rest)
        | rest => do
          let (ms, rest) ← parseMembers (room - 1) fuel rest
          return (.object (Table.ofEntries ms), rest)
    | '[' :: rest =>
      if room = 0 then .error ⟨.deepList, cs⟩
      else match skipGap rest with
        | ']' :: rest => .ok (.array [], rest)
        | rest => do
          let (vs, rest) ← parseItems (room - 1) fuel rest
          return (.array vs, rest)
    | 'n' :: 'u' :: 'l' :: 'l' :: rest => .ok (.null, rest)
    | 't' :: 'r' :: 'u' :: 'e' :: rest => .ok (.bool true, rest)
    | 'f' :: 'a' :: 'l' :: 's' :: 'e' :: rest => .ok (.bool false, rest)
    | 'N' :: 'a' :: 'N' :: rest => .ok (.float .nan, rest)
    | 'I' :: 'n' :: 'f' :: 'i' :: 'n' :: 'i' :: 't' :: 'y' :: rest =>
      .ok (.float (.infinity false), rest)
    | '-' :: 'I' :: 'n' :: 'f' :: 'i' :: 'n' :: 'i' :: 't' :: 'y' :: rest =>
      .ok (.float (.infinity true), rest)
    | '-' :: rest => parseMagnitude cs true rest
    | rest => parseMagnitude cs false rest

/-- The items of a list up to its closing bracket. -/
def parseItems (room : Nat) : Nat → List Char → Except Refusal (List Json × List Char)
  | 0, cs => .error ⟨.noValue, cs⟩
  | fuel + 1, cs => do
    let (v, rest) ← parseValue room fuel cs
    match skipGap rest with
    | ']' :: rest => return ([v], rest)
    | ',' :: rest => do
      let (vs, rest) ← parseItems room fuel (skipGap rest)
      return (v :: vs, rest)
    | rest => .error ⟨.noComma, rest⟩

/-- The members of an object up to its closing bracket. -/
def parseMembers (room : Nat) :
    Nat → List Char → Except Refusal (List (String × Json) × List Char)
  | 0, cs => .error ⟨.noPropertyName, cs⟩
  | fuel + 1, cs =>
    match cs with
    | '"' :: rest => do
      let (k, rest) ← parseString cs (rest.length + 1) rest
      match skipGap rest with
      | ':' :: rest => do
        let (v, rest) ← parseValue room fuel (skipGap rest)
        match skipGap rest with
        | '}' :: rest => return ([(String.ofList k, v)], rest)
        | ',' :: rest => do
          let (ms, rest) ← parseMembers room fuel (skipGap rest)
          return ((String.ofList k, v) :: ms, rest)
        | rest => .error ⟨.noComma, rest⟩
      | rest => .error ⟨.noColon, rest⟩
    | cs => .error ⟨.noPropertyName, cs⟩

end

/-- Read the document that fills the text, with some room for nesting. -/
def parseChars (room : Nat) (cs : List Char) : Except Refusal Json :=
  match cs with
  | c :: _ =>
    if c.toNat == 0xFEFF then .error ⟨.byteOrderMark, cs⟩
    else do
      let (v, rest) ← parseValue room (2 * cs.length + 2) (skipGap cs)
      match skipGap rest with
      | [] => return v
      | rest => .error ⟨.extraData, rest⟩
  | [] => .error ⟨.noValue, []⟩

/-- Read a text as one document. -/
def parse [Room] (s : String) : Except Refusal Json := parseChars Room.reading s.toList

/-- Read a text as one document, however deep it is nested. -/
def parseDeep (s : String) : Except Refusal Json := parseChars s.length s.toList

end Steward.Json
