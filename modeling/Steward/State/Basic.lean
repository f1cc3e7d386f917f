import Steward.Spec.Manager

/-!
# The configuration of a service

The configuration that a service should have, or was seen to have, in terms that do not depend on
the service's own interface.  Sections that are absent or empty are not managed.

`ServiceState` is the program's `IR`, and the structures of `State` are its sections
(`ConnectionIR`, `QualityIR`, `DownloadClientIR` and so on); a `ServiceHealth` is a `HealthReport`,
a `ServiceIssue` a `HealthIssue`.
-/

namespace Steward.State

/-! ## 1. Items -/

/-- How a service is reached, with its key resolved (`ConnectionIR`). -/
structure Connection where
  url : String
  apiKey : String := ""
  insecureSkipVerify : Bool := false
  timeout : Option Int := none
  deriving DecidableEq, Repr

structure Quality where
  preset : String
  profileName : String
  deriving DecidableEq, Repr

structure DownloadClient where
  name : String
  implementation : String
  protocol : String := ""
  host : String := ""
  port : Int := 0
  useSsl : Bool := false
  urlBase : String := ""
  username : String := ""
  password : String := ""
  category : String := ""
  priority : Int := 1
  enabled : Bool := true
  deriving DecidableEq, Repr

structure Indexer where
  name : String
  implementation : String
  protocol : String := ""
  url : String := ""
  apiKey : String := ""
  categories : List Int := []
  priority : Int := 25
  enabled : Bool := true
  deriving DecidableEq, Repr

/-- The indexers of a service; those that an aggregator provides are not listed (`IndexersIR`). -/
structure Indexers where
  aggregatorManaged : Bool := false
  direct : List Indexer := []
  deriving DecidableEq, Repr

structure RootFolder where
  path : String
  deriving DecidableEq, Repr

structure PathMapping where
  host : String
  remotePath : String
  localPath : String
  deriving DecidableEq, Repr

structure ImportList where
  name : String
  type : String
  enabled : Bool := true
  enableAuto : Bool := true
  searchOnAdd : Bool := false
  qualityProfileName : String := ""
  rootFolderPath : String := ""
  settings : Json.Members := []
  deriving DecidableEq, Repr

structure Authentication where
  method : String
  username : String := ""
  password : String := ""
  authenticationRequired : String := ""
  deriving DecidableEq, Repr

/-! ## 2. Items of an aggregator -/

structure AggregatorIndexer where
  name : String
  definition : String
  enable : Bool := true
  priority : Int := 25
  baseUrl : String := ""
  apiKey : String := ""
  tags : List String := []
  deriving DecidableEq, Repr

structure Proxy where
  name : String
  type : String
  host : String
  port : Int := 0
  username : String := ""
  password : String := ""
  tags : List String := []
  deriving DecidableEq, Repr

structure Application where
  name : String
  type : String
  url : String
  apiKey : String := ""
  aggregatorUrl : String := ""
  syncCategories : List Int := []
  syncLevel : String := "fullSync"
  deriving DecidableEq, Repr

structure Aggregator where
  indexers : List AggregatorIndexer := []
  proxies : List Proxy := []
  applications : List Application := []
  downloadClients : List DownloadClient := []
  deriving DecidableEq, Repr

/-! ## 3. The whole -/

/-- A requested feature that the service cannot provide (`UnrealizedFeature`). -/
structure Unrealized where
  feature : String
  reason : String
  deriving DecidableEq, Repr

end Steward.State

namespace Steward

/-- The desired or observed configuration of one service (`IR`). -/
structure ServiceState where
  app : String
  version : String := "v1"
  sourceHash : String := ""
  connection : Option State.Connection := none
  quality : Option State.Quality := none
  downloadClients : List State.DownloadClient := []
  pathMappings : List State.PathMapping := []
  indexers : Option State.Indexers := none
  rootFolders : List State.RootFolder := []
  importLists : List State.ImportList := []
  mediaManagement : Option Spec.MediaManagement := none
  authentication : Option State.Authentication := none
  aggregator : Option State.Aggregator := none
  unrealized : List State.Unrealized := []
  deriving DecidableEq, Repr

/-- Some section is applied directly and not through a change set (`has_direct_config`). -/
def ServiceState.hasDirectSettings (s : ServiceState) : Bool :=
  !s.importLists.isEmpty || s.mediaManagement.isSome || s.authentication.isSome

/-! ## 4. Health -/

/-- A complaint of a service about itself (`HealthIssue`). -/
structure ServiceIssue where
  source : String
  type : String
  message : String
  wikiUrl : String := ""
  deriving DecidableEq, Repr

/-- The complaints of a service at one time (`HealthReport`). -/
structure ServiceHealth where
  healthy : Bool := true
  issues : List ServiceIssue := []
  deriving DecidableEq, Repr

namespace ServiceHealth

/-- The number of issues of a type. -/
def count (r : ServiceHealth) (type : String) : Nat := (r.issues.filter (·.type == type)).length

def errorType : String := "error"
def warningType : String := "warning"

def hasErrors (r : ServiceHealth) : Bool := 0 < r.count errorType
def hasWarnings (r : ServiceHealth) : Bool := 0 < r.count warningType

end ServiceHealth

end Steward
