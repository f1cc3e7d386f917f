import Steward.Json.Storable
import Steward.Network.Url
import Steward.Table

/-!
# URLs of download clients

A download client is given by a URL.  `qbittorrent://host:8080` names the implementation in its
scheme; `http` and `https` URLs leave it open.  Without a port, `https` means 443 and every other
scheme 80.

This is `parse_client_url`, with `normalize_implementation` and `infer_protocol`.
-/

namespace Steward

/-- Why a resource cannot be compiled. -/
inductive CompileError where
  | clientUrl (url : String)
  | clientPort (url : String) (error : Network.PortError)
  | noImplementation (client url : String)
  /-- The URL cannot even be split. -/
  | unsplittable (error : Network.UrlError)
  /-- The specification has no stored form, and so no digest. -/
  | unwritable (error : WriteError)
  deriving DecidableEq, Repr

/-- The text of the error. -/
def CompileError.message : CompileError → String
  | .clientUrl url => "invalid download client URL: " ++ Text.quoted url
  | .clientPort url e => "invalid port in " ++ Text.quoted url ++ ": " ++ e.message
  | .noImplementation client url =>
    "download client " ++ Text.quoted client ++ ": implementation not set and not implied by URL " ++
      Text.quoted url
  | .unsplittable e => e.message
  | .unwritable e => e.message

namespace Implementation

/-- Implementations of download clients, as a scheme names them and as services do. -/
def ofScheme : Table String :=
  [("qbittorrent", "QBittorrent"), ("transmission", "Transmission"), ("deluge", "Deluge"),
    ("rtorrent", "RTorrent"), ("sabnzbd", "Sabnzbd"), ("nzbget", "NzbGet")]

/-- The name that services use, where the implementation is known; else the name as it is
(`normalize_implementation`). -/
def normalize (implementation : String) : String :=
  (Table.get? ofScheme (Text.lower implementation)).getD implementation

def torrent : List String := ["QBittorrent", "Transmission", "Deluge", "RTorrent", "Torznab"]

def usenet : List String := ["Sabnzbd", "NzbGet", "Newznab"]

/-- The protocol that an implementation speaks, or nothing if it is not known (`infer_protocol`). -/
def protocol (implementation : String) : String :=
  if implementation ∈ torrent then "torrent"
  else if implementation ∈ usenet then "usenet"
  else ""

end Implementation

/-- The parts of a download client's URL. -/
structure ClientUrl where
  /-- Empty where the scheme names none. -/
  implementation : String
  host : String
  port : Nat
  useSsl : Bool
  urlBase : String
  deriving DecidableEq, Repr

namespace ClientUrl

/-- Split a URL (`parse_client_url`). -/
def parse (raw : String) : Except CompileError ClientUrl := do
  let url ← (Network.Url.split raw).mapError .unsplittable
  let scheme := String.ofList url.scheme
  match url.host? with
  | none => throw (.clientUrl raw)
  | some host =>
    if scheme.isEmpty then throw (.clientUrl raw)
    let useSsl := scheme == "https"
    let implementation :=
      if scheme == "http" || scheme == "https" then "" else Implementation.normalize scheme
    let port ← url.port?.mapError (.clientPort raw)
    return { implementation, host, useSsl
             port := port.getD (if useSsl then 443 else 80)
             urlBase := String.ofList (Text.dropRight (· == '/') url.path) }

end ClientUrl

end Steward
