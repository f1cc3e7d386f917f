import Steward.Json.Literal
import Steward.Kind

/-!
# Registrations

A service as an aggregator should know it: the aggregator passes its indexers on to the services
that are registered with it as applications.

A registration is an `AppRegistration`, an application of a registration what its `to_payload`
gives.
-/

namespace Steward

/-- A service to be registered with an aggregator (`AppRegistration`). -/
structure Registration where
  name : String
  service : String
  baseUrl : String
  apiKey : String
  aggregatorUrl : String
  syncCategories : List Int := []
  syncLevel : String := "fullSync"
  deriving DecidableEq, Repr

/-- Why the aggregator cannot be used, or refuses. -/
inductive RegistrationError where
  | unsupportedService (service : String)
  | status (code : Int) (body : String)
  | transport (method url text : String)
  | noId (name : String)
  | noApiKey (ns name : String)
  deriving DecidableEq, Repr

namespace RegistrationError

/-- The text of the error. -/
def message : RegistrationError → String
  | .unsupportedService service => "unsupported application type: " ++ service
  | .status code body => s!"unexpected status {code}: {body}"
  | .transport method url text => method ++ " " ++ url ++ " failed: " ++ text
  | .noId name => "aggregator did not return an id for " ++ name
  | .noApiKey ns name => "Prowlarr " ++ ns ++ "/" ++ name ++ " has no API key configured"

/-- The status code of an answer that refuses. -/
def code? : RegistrationError → Option Int
  | .status code _ => some code
  | _ => none

end RegistrationError

namespace Registration

/-- The name of a service that is registered because it refers to the aggregator
(`pull_registration_name`). -/
def pullName (pre name service : String) : String := pre ++ "-pull-" ++ name ++ "-" ++ service

/-- The aggregator's name for a type of service. -/
def implementation? (service : String) : Option String :=
  Table.get? [("sonarr", "Sonarr"), ("radarr", "Radarr"), ("lidarr", "Lidarr"),
    ("readarr", "Readarr")] service

/-- The document that is sent; an id says which application it replaces (`to_payload`). -/
def payload (r : Registration) (id : Option Json) : Except RegistrationError Json :=
  match implementation? r.service with
  | none => .error (.unsupportedService r.service)
  | some implementation =>
    let categories :=
      if r.syncCategories.isEmpty then usualCategories r.service else r.syncCategories
    let field (name : String) (value : Json) : Json :=
      .object [("name", .string name), ("value", value)]
    let members : Json.Members :=
      [("name", .string r.name),
        ("implementation", .string implementation),
        ("configContract", .string (implementation ++ "Settings")),
        ("syncLevel", .string (if r.syncLevel.isEmpty then "fullSync" else r.syncLevel)),
        ("fields", .array [field "baseUrl" (.string r.baseUrl),
          field "apiKey" (.string r.apiKey),
          field "prowlarrUrl" (.string r.aggregatorUrl),
          field "syncCategories" (.array (categories.map .int))])]
    .ok (.object (match id with
      | some id => members ++ [("id", id)]
      | none => members))

end Registration

end Steward
