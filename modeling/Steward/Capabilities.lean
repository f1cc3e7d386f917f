/-!
# Capabilities

The sections that a live service can be configured in.  A section whose flag is down is left alone;
a list of implementations, where it is not empty, restricts which items of a section are managed.

These are the program's `Capabilities` with `supports`, and the `RESOURCE_…` types of changes.
-/

namespace Steward

/-- The kinds of items that a change can be about. -/
inductive Section where
  | qualityProfile
  | downloadClient
  | indexer
  | rootFolder
  | pathMapping
  | importList
  | mediaManagement
  | authentication
  | application
  | indexerProxy
  /-- A kind that no service is known to have. -/
  | other (name : String)
  deriving DecidableEq, Repr

namespace Section

/-- The kinds that services are known to have. -/
def known : List Section :=
  [.qualityProfile, .downloadClient, .indexer, .rootFolder, .pathMapping, .importList,
    .mediaManagement, .authentication, .application, .indexerProxy]

def name : Section → String
  | .qualityProfile => "QualityProfile"
  | .downloadClient => "DownloadClient"
  | .indexer => "Indexer"
  | .rootFolder => "RootFolder"
  | .pathMapping => "RemotePathMapping"
  | .importList => "ImportList"
  | .mediaManagement => "MediaManagement"
  | .authentication => "Authentication"
  | .application => "Application"
  | .indexerProxy => "IndexerProxy"
  | .other name => name

/-- The kind of a name. -/
def ofName (name : String) : Section := (known.find? (·.name == name)).getD (.other name)

end Section

/-- What a service can do. -/
structure Capabilities where
  qualityProfiles : Bool := true
  downloadClients : Bool := true
  indexers : Bool := true
  rootFolders : Bool := true
  pathMappings : Bool := true
  importLists : Bool := true
  mediaManagement : Bool := true
  authentication : Bool := true
  applications : Bool := true
  indexerProxies : Bool := true
  resolutions : List String := []
  downloadClientTypes : List String := []
  indexerTypes : List String := []
  deriving DecidableEq, Repr

/-- Changes of a kind are allowed. -/
def Capabilities.supports (c : Capabilities) : Section → Bool
  | .qualityProfile => c.qualityProfiles
  | .downloadClient => c.downloadClients
  | .indexer => c.indexers
  | .rootFolder => c.rootFolders
  | .pathMapping => c.pathMappings
  | .importList => c.importLists
  | .mediaManagement => c.mediaManagement
  | .authentication => c.authentication
  | .application => c.applications
  | .indexerProxy => c.indexerProxies
  | .other _ => false

end Steward
