/-!
# Kinds of resources

Four kinds of resources describe acquisition managers, one describes the aggregator.  Each kind has
the type of service that it configures.

The kinds are those of `CONFIG_KINDS`: the managers are its `DOWNSTREAM_KINDS` (`KIND_SONARR`,
`KIND_RADARR`, `KIND_LIDARR`, `KIND_READARR`), the aggregator is `KIND_PROWLARR`.
-/

namespace Steward

/-- The acquisition managers. -/
inductive ManagerKind where
  | sonarr
  | radarr
  | lidarr
  | readarr
  deriving DecidableEq, Repr

/-- The kinds of resources. -/
inductive Kind where
  | manager (kind : ManagerKind)
  | aggregator
  deriving DecidableEq, Repr

namespace ManagerKind

/-- All managers, in the order in which their registrations are looked after
(`DOWNSTREAM_KINDS`). -/
def all : List ManagerKind := [.sonarr, .radarr, .lidarr, .readarr]

/-- The type of service. -/
def service : ManagerKind → String
  | .sonarr => "sonarr"
  | .radarr => "radarr"
  | .lidarr => "lidarr"
  | .readarr => "readarr"

/-- The name of the kind of resource. -/
def resourceKind : ManagerKind → String
  | .sonarr => "SonarrConfig"
  | .radarr => "RadarrConfig"
  | .lidarr => "LidarrConfig"
  | .readarr => "ReadarrConfig"

end ManagerKind

namespace Kind

/-- The kind of resource that describes an aggregator. -/
def aggregatorName : String := "ProwlarrConfig"

/-- All kinds (`CONFIG_KINDS`). -/
def all : List Kind := ManagerKind.all.map .manager ++ [.aggregator]

def name : Kind → String
  | .manager m => m.resourceKind
  | .aggregator => aggregatorName

/-- The type of service that resources of the kind configure. -/
def service : Kind → String
  | .manager m => m.service
  | .aggregator => "prowlarr"

/-- The kind of a name. -/
def ofName? (name : String) : Option Kind := all.find? (·.name == name)

theorem ofName?_name (k : Kind) : ofName? k.name = some k := by
  rcases k with (_ | _ | _ | _) | _ <;> decide

end Kind

/-- The categories that an application of a type is synchronized with unless it names its own
(`DEFAULT_SYNC_CATEGORIES`). -/
def usualCategories (service : String) : List Int :=
  if service = "radarr" then [2000, 2010, 2020, 2030, 2040, 2045, 2050, 2060]
  else if service = "sonarr" then [5000, 5010, 5020, 5030, 5040, 5045, 5050]
  else if service = "lidarr" then [3000, 3010, 3020, 3030, 3040]
  else if service = "readarr" then [7000, 7010, 7020, 7030, 8000, 8010]
  else []

end Steward
