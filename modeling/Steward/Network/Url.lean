import Steward.Network.Address
import Steward.Text.Case
import Steward.Text.Numeral

/-!
# Splitting URLs

`Url.split` parts a URL into scheme, authority and path; the query and the fragment are dropped,
and so are the parameters of the last path segment for the schemes that have them.  Control
characters and blanks in front, and tabs and line breaks anywhere, do not count.  Whatever has no
scheme is split as a path without one.

An authority is refused where its brackets do not enclose an address, or where one of its
characters would become a delimiter under compatibility normalization.

This is `urlparse`, as `parse_client_url` calls it.
-/

namespace Steward.Network

/-- Why a URL cannot be split. -/
inductive UrlError where
  | brackets
  | notAnAddress (host : String)
  | addressInBrackets
  | futureAddress
  | normalization (authority : String)
  deriving DecidableEq, Repr

/-- The text of the error. -/
def UrlError.message : UrlError → String
  | .brackets => "Invalid IPv6 URL"
  | .notAnAddress host => Text.quoted host ++ " does not appear to be an IPv4 or IPv6 address"
  | .addressInBrackets => "An IPv4 address cannot be in brackets"
  | .futureAddress => "IPvFuture address is invalid"
  | .normalization authority =>
    "netloc '" ++ authority ++ "' contains invalid characters under NFKC normalization"

/-- Why the port of an authority is no port. -/
inductive PortError where
  | notNumber (text : String)
  | outOfRange
  | numeral (error : Text.NumeralError)
  deriving DecidableEq, Repr

/-- The text of the error. -/
def PortError.message : PortError → String
  | .notNumber text => "Port could not be cast to integer value as " ++ Text.quoted text
  | .outOfRange => "Port out of range 0-65535"
  | .numeral e => e.message

/-- The parts of a URL that lead to a service. -/
structure Url where
  scheme : List Char
  authority : List Char
  path : List Char
  deriving DecidableEq, Repr

namespace Url

/-! ## 1. Characters -/

/-- Letters of ASCII. -/
def isLetter (c : Char) : Bool := ('a' ≤ c && c ≤ 'z') || ('A' ≤ c && c ≤ 'Z')

/-- Characters of a scheme. -/
def isSchemeChar (c : Char) : Bool := isLetter c || isDigit c || c == '+' || c == '-' || c == '.'

/-- Characters that compatibility normalization turns into a delimiter. -/
def hidesDelimiter (c : Char) : Bool :=
  c.toNat ∈ [0x2047, 0x2048, 0x2049, 0x2100, 0x2101, 0x2105, 0x2106, 0x2A74, 0xFE13, 0xFE16,
    0xFE55, 0xFE56, 0xFE5F, 0xFE6B, 0xFF03, 0xFF0F, 0xFF1A, 0xFF1F, 0xFF20]

/-- The schemes whose last path segment has parameters after a semicolon. -/
def schemesWithParameters : List String :=
  ["", "ftp", "hdl", "prospero", "http", "imap", "https", "shttp", "rtsp", "rtsps", "rtspu", "sip",
    "sips", "mms", "sftp", "tel"]

/-! ## 2. Splitting -/

/-- The text without what does not count. -/
def significant (cs : List Char) : List Char :=
  (cs.dropWhile fun c => c.toNat ≤ 0x20).filter fun c => c != '\t' && c != '\n' && c != '\r'

/-- The scheme in lower case and what follows its colon, or no scheme and the whole text. -/
def splitScheme (cs : List Char) : List Char × List Char :=
  match Text.cut ':' cs with
  | (scheme, some rest) =>
    match scheme with
    | c :: _ =>
      if isLetter c && scheme.all isSchemeChar then (scheme.map Char.toLower, rest) else ([], cs)
    | [] => ([], cs)
  | _ => ([], cs)

/-- The authority after two slashes, and what follows it. -/
def splitAuthority (cs : List Char) : List Char × List Char :=
  match cs with
  | '/' :: '/' :: rest => rest.span fun c => c != '/' && c != '?' && c != '#'
  | cs => ([], cs)

/-- Refuse a host in brackets that is no address. -/
def checkHost (host : List Char) : Except UrlError Unit :=
  if host.head? == some 'v' then
    if isFutureAddress host then .ok () else .error .futureAddress
  else if isIPv4 host then .error .addressInBrackets
  else if isIPv6 host then .ok ()
  else .error (.notAnAddress (String.ofList host))

/-- Refuse an authority whose brackets do not enclose its host. -/
def checkBrackets (authority : List Char) : Except UrlError Unit :=
  let opened := authority.contains '['
  let closed := authority.contains ']'
  if opened != closed then .error .brackets
  else if opened then
    let hostAndPort := Text.afterLast '@' authority
    match Text.cut '[' hostAndPort with
    | (before, some bracketed) =>
      let (host, after) := Text.cut ']' bracketed
      if !before.isEmpty then .error .brackets
      else
        match after with
        | some (c :: _) => if c == ':' then checkHost host else .error .brackets
        | _ => checkHost host
    | (_, none) => checkHost (Text.cut ':' hostAndPort).1
  else .ok ()

/-- Drop the parameters of the last segment. -/
def dropParameters (path : List Char) : List Char :=
  let segment := Text.afterLast '/' path
  path.take (path.length - segment.length) ++ (Text.cut ';' segment).1

/-- Split a URL. -/
def split (text : String) : Except UrlError Url := do
  let (scheme, rest) := splitScheme (significant text.toList)
  let (authority, rest) := splitAuthority rest
  checkBrackets authority
  let path := (Text.cut '?' (Text.cut '#' rest).1).1
  if authority.any hidesDelimiter then throw (.normalization (String.ofList authority))
  let path :=
    if String.ofList scheme ∈ schemesWithParameters then dropParameters path else path
  return { scheme, authority, path }

/-! ## 3. Host and port -/

/-- Host and port of an authority as they are written. -/
def hostAndPort (u : Url) : List Char × List Char :=
  let cs := Text.afterLast '@' u.authority
  match Text.cut '[' cs with
  | (_, some bracketed) =>
    let (host, after) := Text.cut ']' bracketed
    (host, ((Text.cut ':' (after.getD [])).2).getD [])
  | (_, none) =>
    let (host, port) := Text.cut ':' cs
    (host, port.getD [])

/-- The host in lower case, save for the zone of an address; none if it is empty. -/
def host? (u : Url) : Option String :=
  let (host, _) := u.hostAndPort
  if host.isEmpty then none
  else
    let (name, zone) := Text.cut '%' host
    let suffix := match zone with
      | some z => "%" ++ String.ofList z
      | none => ""
    some (Text.lower (String.ofList name) ++ suffix)

/-- The port, if there is one. -/
def port? (u : Url) : Except PortError (Option Nat) :=
  let (_, port) := u.hostAndPort
  if port.isEmpty then .ok none
  else if !port.all isDigit then .error (.notNumber (String.ofList port))
  else
    match Text.readInteger (String.ofList port) with
    | .error e => .error (.numeral e)
    | .ok n => if n ≤ 65535 then .ok (some n.toNat) else .error .outOfRange

end Url

end Steward.Network
