import Steward.Change

/-!
# Differences between configurations

`diff` compares an observed with a desired configuration section by section and item by item, where
items are told apart by their name, profile name, path, or host and remote path.  Of several items
with one key the last counts.  Keys and passwords take no part in the comparison, since services do
not give them back.

A section that the service does not support is passed over on both sides; so are download clients
and indexers of an implementation that it lacks.  Root folders are only ever created, and indexers
are not deleted while an aggregator provides indexers.

This is `diff_ir`: `changesOf` is its `diff_named`, `ofAggregator` its `_diff_prowlarr`.
-/

namespace Steward

/-- Members of an item that a service takes and never gives back (`SECRET_FIELDS`). -/
def Item.hiddenMembers : List String := ["api_key", "password"]

/-- The document of an item without what the service does not give back (`items_equal`). -/
def Item.visibleDocument : Json → Json
  | .object members => .object (members.filter fun m => !hiddenMembers.contains m.1)
  | v => v

/-- The ids that a service has given to its items, by kind and name. -/
abbrev ItemIds := Table (Table Int)

namespace Diff

/-! ## 1. One section -/

/-- Which changes a section may see. -/
inductive Mode where
  | full
  /-- Items are created, and never updated or deleted. -/
  | createOnly
  /-- Items are created and updated, and never deleted. -/
  | keepMissing
  deriving DecidableEq, Repr

/-- How the items of a section are told apart, compared and carried. -/
structure Keyed (α : Type) where
  kind : Section
  key : α → String
  /-- The item without what the service does not give back. -/
  visible : α → α
  carry : α → Item

variable {α : Type} [DecidableEq α]

/-- Items of one key differ in what the service gives back. -/
def Keyed.differs (k : Keyed α) (a b : α) : Bool := k.visible a != k.visible b

/-- The changes of one section (`diff_named`). -/
def changesOf (k : Keyed α) (ids : Table Int) (mode : Mode) (observed desired : List α) :
    ChangeSet :=
  let seen := Table.ofItems k.key observed
  let want := Table.ofItems k.key desired
  { creates := want.filterMap fun (name, item) =>
      if Table.has seen name then none
      else some { kind := k.kind, name, payload := some (k.carry item) }
    updates := if mode = .createOnly then [] else want.filterMap fun (name, item) =>
      match Table.get? seen name with
      | some old =>
        if k.differs old item then
          some { kind := k.kind, name, id := Table.get? ids name, payload := some (k.carry item) }
        else none
      | none => none
    deletes := if mode = .full then seen.filterMap fun (name, _) =>
        if Table.has want name then none
        else some { kind := k.kind, name, id := Table.get? ids name }
      else [] }

/-! ## 2. The sections -/

def qualities : Keyed State.Quality := ⟨.qualityProfile, (·.profileName), id, .quality⟩

def downloadClients : Keyed State.DownloadClient :=
  ⟨.downloadClient, (·.name), fun c => { c with password := "" }, .downloadClient⟩

def indexers : Keyed State.Indexer :=
  ⟨.indexer, (·.name), fun i => { i with apiKey := "" }, .indexer⟩

def rootFolders : Keyed State.RootFolder := ⟨.rootFolder, (·.path), id, .rootFolder⟩

def pathMappings : Keyed State.PathMapping :=
  ⟨.pathMapping, fun m => m.host ++ ":" ++ m.remotePath, id, .pathMapping⟩

def aggregatorIndexers : Keyed State.AggregatorIndexer :=
  ⟨.indexer, (·.name), fun i => { i with apiKey := "" }, .aggregatorIndexer⟩

def proxies : Keyed State.Proxy :=
  ⟨.indexerProxy, (·.name), fun p => { p with password := "" }, .proxy⟩

def applications : Keyed State.Application :=
  ⟨.application, (·.name), fun a => { a with apiKey := "" }, .application⟩

/-- Download clients of an implementation that the service has (`filter_download_clients`). -/
def supportedClients (caps : Capabilities) (cs : List State.DownloadClient) :
    List State.DownloadClient :=
  if caps.downloadClientTypes.isEmpty then cs
  else cs.filter fun c => caps.downloadClientTypes.contains c.implementation

/-- Indexers of an implementation that the service has (`filter_indexers`). -/
def supportedIndexers (caps : Capabilities) (is : List State.Indexer) : List State.Indexer :=
  if caps.indexerTypes.isEmpty then is
  else is.filter fun i => caps.indexerTypes.contains i.implementation

/-! ## 3. The whole -/

/-- The changes of a section that is supported, none of one that is not. -/
def gated (caps : Capabilities) (ids : ItemIds) (mode : Mode) (k : Keyed α)
    (observed desired : List α) : ChangeSet :=
  if caps.supports k.kind then
    changesOf k ((Table.get? ids k.kind.name).getD []) mode observed desired
  else {}

/-- The direct indexers of a configuration. -/
def directIndexers (s : ServiceState) : List State.Indexer :=
  match s.indexers with
  | some is => is.direct
  | none => []

/-- An aggregator provides indexers for the service. -/
def aggregatorManaged (s : ServiceState) : Bool :=
  match s.indexers with
  | some is => is.aggregatorManaged
  | none => false

/-- The changes of the sections of an acquisition manager. -/
def ofManager (observed desired : ServiceState) (caps : Capabilities) (ids : ItemIds) :
    ChangeSet :=
  gated caps ids .full qualities observed.quality.toList desired.quality.toList ++
  gated caps ids .full downloadClients (supportedClients caps observed.downloadClients)
    (supportedClients caps desired.downloadClients) ++
  gated caps ids (if aggregatorManaged desired then .keepMissing else .full) indexers
    (supportedIndexers caps (directIndexers observed))
    (supportedIndexers caps (directIndexers desired)) ++
  gated caps ids .createOnly rootFolders observed.rootFolders desired.rootFolders ++
  gated caps ids .full pathMappings observed.pathMappings desired.pathMappings

/-- The changes of the sections of an aggregator (`_diff_prowlarr`). -/
def ofAggregator (observed desired : State.Aggregator) (caps : Capabilities) (ids : ItemIds) :
    ChangeSet :=
  gated caps ids .full aggregatorIndexers observed.indexers desired.indexers ++
  gated caps ids .full proxies observed.proxies desired.proxies ++
  gated caps ids .full applications observed.applications desired.applications ++
  gated caps ids .full downloadClients (supportedClients caps observed.downloadClients)
    (supportedClients caps desired.downloadClients)

end Diff

/-- The changes from an observed configuration (none for a service that was never configured) to a
desired one (`diff_ir`). -/
def diff (observed : Option ServiceState) (desired : ServiceState) (caps : Capabilities)
    (ids : ItemIds := []) : ChangeSet :=
  let seen := observed.getD { app := desired.app }
  let manager := Diff.ofManager seen desired caps ids
  if seen.aggregator.isSome || desired.aggregator.isSome then
    manager ++
      Diff.ofAggregator (seen.aggregator.getD {}) (desired.aggregator.getD {}) caps ids
  else manager

end Steward
