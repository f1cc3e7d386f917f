import Steward.Text.Cut

/-!
# Network addresses as text

Which texts are addresses: four decimal octets, or eight groups of hexadecimal digits of which one
run of zeros may be left out, where the last two groups may be written as four octets, and where a
zone may follow a percent sign.
-/

namespace Steward.Network

/-- An ASCII digit. -/
def isDigit (c : Char) : Bool := '0' ≤ c && c ≤ '9'

/-- A hexadecimal digit. -/
def isHexDigit (c : Char) : Bool :=
  isDigit c || ('a' ≤ c && c ≤ 'f') || ('A' ≤ c && c ≤ 'F')

/-- The value of ASCII digits. -/
def decimalValue (cs : List Char) : Nat := cs.foldl (fun n c => 10 * n + (c.toNat - 0x30)) 0

/-- A number from 0 to 255 of at most three digits, without zeros in front. -/
def isOctet (cs : List Char) : Bool :=
  !cs.isEmpty && cs.all isDigit && cs.length ≤ 3 && (cs == ['0'] || cs.head? != some '0') &&
    decimalValue cs ≤ 255

/-- Four octets with dots between them. -/
def isIPv4 (cs : List Char) : Bool :=
  let octets := Text.fields '.' cs
  octets.length == 4 && octets.all isOctet

/-- One to four hexadecimal digits. -/
def isGroup (cs : List Char) : Bool := !cs.isEmpty && cs.length ≤ 4 && cs.all isHexDigit

/-- Replace four octets at the end by two groups; `none` if what stands there is no address. -/
def expandOctets? (groups : List (List Char)) : Option (List (List Char)) :=
  match groups.getLast? with
  | some last =>
    if last.contains '.' then
      if isIPv4 last then some (groups.dropLast ++ [['0'], ['0']]) else none
    else some groups
  | none => some groups

/-- The places of empty groups other than the first and the last group. -/
def innerGaps (groups : List (List Char)) : List Nat :=
  (List.range groups.length).filter fun i =>
    0 < i && i + 1 < groups.length && (groups[i]?.getD []).isEmpty

/-- Groups with colons between them; an empty group in the middle stands for the zeros left out. -/
def isGroups (groups : List (List Char)) : Bool :=
  if 9 < groups.length then false
  else
    let noneAtStart := (groups.head?.getD []).isEmpty
    let noneAtEnd := (groups.getLast?.getD []).isEmpty
    match innerGaps groups with
    | [] => groups.length == 8 && groups.all isGroup
    | [gap] =>
      let before := groups.take gap
      let after := groups.drop (gap + 1)
      let high := if noneAtStart then before.drop 1 else before
      let low := if noneAtEnd then after.dropLast else after
      (!noneAtStart || high.isEmpty) && (!noneAtEnd || low.isEmpty) &&
        high.length + low.length < 8 && high.all isGroup && low.all isGroup
    | _ => false

/-- An address of eight groups, perhaps with a zone. -/
def isIPv6 (cs : List Char) : Bool :=
  let (address, zone) := Text.cut '%' cs
  let zoneOk := match zone with
    | some z => !z.isEmpty && !z.contains '%'
    | none => true
  let parts := Text.fields ':' address
  zoneOk && !address.contains '/' && 3 ≤ parts.length &&
    match expandOctets? parts with
    | some groups => isGroups groups
    | none => false

/-- A future address: a version in hexadecimal after `v`, a dot, and at least one character. -/
def isFutureAddress (cs : List Char) : Bool :=
  match cs with
  | 'v' :: rest =>
    match rest.span isHexDigit with
    | ([], _) => false
    | (_, '.' :: _ :: _) => true
    | _ => false
  | _ => false

end Steward.Network
