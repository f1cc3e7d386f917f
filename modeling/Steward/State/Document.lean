import Steward.Change
import Steward.Document.Block

/-!
# Configurations as documents

A configuration is written with all its members, null where nothing is set, under names in snake
case.  Where a member has a default it may be left out when it is read.

This is `asdict` of an `IR` and of its sections.
-/

namespace Steward

open Block

namespace State

/-! ## 1. Items -/

def Connection.codec : Codec Connection :=
  (Connection.mk
    <$> fixed "url" .text (·.url)
    <*> preset "api_key" .text "" (·.apiKey)
    <*> preset "insecure_skip_verify" .flag false (·.insecureSkipVerify)
    <*> preset "timeout" Codec.whole.nullable none (·.timeout)).codec "ConnectionIR"

def Quality.codec : Codec Quality :=
  (Quality.mk
    <$> fixed "preset" .text (·.preset)
    <*> fixed "profile_name" .text (·.profileName)).codec "QualityIR"

def DownloadClient.codec : Codec DownloadClient :=
  (DownloadClient.mk
    <$> fixed "name" .text (·.name)
    <*> fixed "implementation" .text (·.implementation)
    <*> preset "protocol" .text "" (·.protocol)
    <*> preset "host" .text "" (·.host)
    <*> preset "port" .whole 0 (·.port)
    <*> preset "use_ssl" .flag false (·.useSsl)
    <*> preset "url_base" .text "" (·.urlBase)
    <*> preset "username" .text "" (·.username)
    <*> preset "password" .text "" (·.password)
    <*> preset "category" .text "" (·.category)
    <*> preset "priority" .whole 1 (·.priority)
    <*> preset "enabled" .flag true (·.enabled)).codec "DownloadClientIR"

def Indexer.codec : Codec Indexer :=
  (Indexer.mk
    <$> fixed "name" .text (·.name)
    <*> fixed "implementation" .text (·.implementation)
    <*> preset "protocol" .text "" (·.protocol)
    <*> preset "url" .text "" (·.url)
    <*> preset "api_key" .text "" (·.apiKey)
    <*> preset "categories" Codec.whole.list [] (·.categories)
    <*> preset "priority" .whole 25 (·.priority)
    <*> preset "enabled" .flag true (·.enabled)).codec "IndexerIR"

def Indexers.codec : Codec Indexers :=
  (Indexers.mk
    <$> preset "prowlarr_managed" .flag false (·.aggregatorManaged)
    <*> preset "direct" Indexer.codec.list [] (·.direct)).codec "IndexersIR"

def RootFolder.codec : Codec RootFolder :=
  (RootFolder.mk <$> fixed "path" .text (·.path)).codec "RootFolderIR"

def PathMapping.codec : Codec PathMapping :=
  (PathMapping.mk
    <$> fixed "host" .text (·.host)
    <*> fixed "remote_path" .text (·.remotePath)
    <*> fixed "local_path" .text (·.localPath)).codec "RemotePathMappingIR"

def ImportList.codec : Codec ImportList :=
  (ImportList.mk
    <$> fixed "name" .text (·.name)
    <*> fixed "type" .text (·.type)
    <*> preset "enabled" .flag true (·.enabled)
    <*> preset "enable_auto" .flag true (·.enableAuto)
    <*> preset "search_on_add" .flag false (·.searchOnAdd)
    <*> preset "quality_profile_name" .text "" (·.qualityProfileName)
    <*> preset "root_folder_path" .text "" (·.rootFolderPath)
    <*> preset "settings" .members [] (·.settings)).codec "ImportListIR"

def mediaManagementCodec : Codec Spec.MediaManagement :=
  (Spec.MediaManagement.mk
    <$> preset "recycle_bin" Codec.text.nullable none (·.recycleBin)
    <*> preset "recycle_bin_cleanup_days" Codec.whole.nullable none (·.recycleBinCleanupDays)
    <*> preset "set_permissions" Codec.flag.nullable none (·.setPermissions)
    <*> preset "chmod_folder" Codec.text.nullable none (·.chmodFolder)
    <*> preset "chown_group" Codec.text.nullable none (·.chownGroup)
    <*> preset "delete_empty_folders" Codec.flag.nullable none (·.deleteEmptyFolders)
    <*> preset "create_empty_folders" Codec.flag.nullable none (·.createEmptyFolders)
    <*> preset "use_hardlinks" Codec.flag.nullable none (·.useHardlinks)
    <*> preset "watch_library_for_changes" Codec.flag.nullable none
      (·.watchLibraryForChanges)).codec "MediaManagementIR"

def Authentication.codec : Codec Authentication :=
  (Authentication.mk
    <$> fixed "method" .text (·.method)
    <*> preset "username" .text "" (·.username)
    <*> preset "password" .text "" (·.password)
    <*> preset "authentication_required" .text "" (·.authenticationRequired)).codec
    "AuthenticationIR"

/-! ## 2. Items of an aggregator -/

def AggregatorIndexer.codec : Codec AggregatorIndexer :=
  (AggregatorIndexer.mk
    <$> fixed "name" .text (·.name)
    <*> fixed "definition" .text (·.definition)
    <*> preset "enable" .flag true (·.enable)
    <*> preset "priority" .whole 25 (·.priority)
    <*> preset "base_url" .text "" (·.baseUrl)
    <*> preset "api_key" .text "" (·.apiKey)
    <*> preset "tags" Codec.text.list [] (·.tags)).codec "ProwlarrIndexerIR"

def Proxy.codec : Codec Proxy :=
  (Proxy.mk
    <$> fixed "name" .text (·.name)
    <*> fixed "type" .text (·.type)
    <*> fixed "host" .text (·.host)
    <*> preset "port" .whole 0 (·.port)
    <*> preset "username" .text "" (·.username)
    <*> preset "password" .text "" (·.password)
    <*> preset "tags" Codec.text.list [] (·.tags)).codec "IndexerProxyIR"

def Application.codec : Codec Application :=
  (Application.mk
    <$> fixed "name" .text (·.name)
    <*> fixed "type" .text (·.type)
    <*> fixed "url" .text (·.url)
    <*> preset "api_key" .text "" (·.apiKey)
    <*> preset "prowlarr_url" .text "" (·.aggregatorUrl)
    <*> preset "sync_categories" Codec.whole.list [] (·.syncCategories)
    <*> preset "sync_level" .text "fullSync" (·.syncLevel)).codec "ProwlarrApplicationIR"

def Aggregator.codec : Codec Aggregator :=
  (Aggregator.mk
    <$> preset "indexers" AggregatorIndexer.codec.list [] (·.indexers)
    <*> preset "proxies" Proxy.codec.list [] (·.proxies)
    <*> preset "applications" Application.codec.list [] (·.applications)
    <*> preset "download_clients" DownloadClient.codec.list [] (·.downloadClients)).codec
    "ProwlarrIR"

def Unrealized.codec : Codec Unrealized :=
  (Unrealized.mk
    <$> fixed "feature" .text (·.feature)
    <*> fixed "reason" .text (·.reason)).codec "UnrealizedFeature"

end State

/-! ## 3. The whole -/

def ServiceState.codec : Codec ServiceState :=
  (ServiceState.mk
    <$> fixed "app" .text (·.app)
    <*> preset "version" .text "v1" (·.version)
    <*> preset "source_hash" .text "" (·.sourceHash)
    <*> preset "connection" State.Connection.codec.nullable none (·.connection)
    <*> preset "quality" State.Quality.codec.nullable none (·.quality)
    <*> preset "download_clients" State.DownloadClient.codec.list [] (·.downloadClients)
    <*> preset "remote_path_mappings" State.PathMapping.codec.list [] (·.pathMappings)
    <*> preset "indexers" State.Indexers.codec.nullable none (·.indexers)
    <*> preset "root_folders" State.RootFolder.codec.list [] (·.rootFolders)
    <*> preset "import_lists" State.ImportList.codec.list [] (·.importLists)
    <*> preset "media_management" State.mediaManagementCodec.nullable none (·.mediaManagement)
    <*> preset "authentication" State.Authentication.codec.nullable none (·.authentication)
    <*> preset "prowlarr" State.Aggregator.codec.nullable none (·.aggregator)
    <*> preset "unrealized" State.Unrealized.codec.list [] (·.unrealized)).codec "IR"

def ServiceIssue.codec : Codec ServiceIssue :=
  (ServiceIssue.mk
    <$> fixed "source" .text (·.source)
    <*> fixed "type" .text (·.type)
    <*> fixed "message" .text (·.message)
    <*> preset "wiki_url" .text "" (·.wikiUrl)).codec "HealthIssue"

def ServiceHealth.codec : Codec ServiceHealth :=
  (ServiceHealth.mk
    <$> preset "healthy" .flag true (·.healthy)
    <*> preset "issues" ServiceIssue.codec.list [] (·.issues)).codec "HealthReport"

def Capabilities.codec : Codec Capabilities :=
  (Capabilities.mk
    <$> preset "quality_profiles" .flag true (·.qualityProfiles)
    <*> preset "download_clients" .flag true (·.downloadClients)
    <*> preset "indexers" .flag true (·.indexers)
    <*> preset "root_folders" .flag true (·.rootFolders)
    <*> preset "remote_path_mappings" .flag true (·.pathMappings)
    <*> preset "import_lists" .flag true (·.importLists)
    <*> preset "media_management" .flag true (·.mediaManagement)
    <*> preset "authentication" .flag true (·.authentication)
    <*> preset "applications" .flag true (·.applications)
    <*> preset "indexer_proxies" .flag true (·.indexerProxies)
    <*> preset "resolutions" Codec.text.list [] (·.resolutions)
    <*> preset "download_client_types" Codec.text.list [] (·.downloadClientTypes)
    <*> preset "indexer_types" Codec.text.list [] (·.indexerTypes)).codec "Capabilities"

/-! ## 4. Changes -/

/-- The document of an item; an item in the service's own terms is its own document. -/
def Item.toJson : Item → Json
  | .quality i => State.Quality.codec.write i
  | .downloadClient i => State.DownloadClient.codec.write i
  | .indexer i => State.Indexer.codec.write i
  | .rootFolder i => State.RootFolder.codec.write i
  | .pathMapping i => State.PathMapping.codec.write i
  | .aggregatorIndexer i => State.AggregatorIndexer.codec.write i
  | .proxy i => State.Proxy.codec.write i
  | .application i => State.Application.codec.write i
  | .document v => v

/-- An item of any shape. -/
def Item.codec : Codec Item where
  read v := .valid (.document v)
  write := Item.toJson

/-- A kind of item by its name. -/
def Section.codec : Codec Section where
  read v := (Codec.text.read v).map Section.ofName
  write s := .string s.name

def Change.codec : Codec Change :=
  (Change.mk
    <$> fixed "resource_type" Section.codec (·.kind)
    <*> fixed "name" .text (·.name)
    <*> preset "id" Codec.whole.nullable none (·.id)
    <*> preset "payload" Item.codec.nullable none (·.payload)).codec "Change"

def ChangeSet.codec : Codec ChangeSet :=
  (ChangeSet.mk
    <$> preset "creates" Change.codec.list [] (·.creates)
    <*> preset "updates" Change.codec.list [] (·.updates)
    <*> preset "deletes" Change.codec.list [] (·.deletes)).codec "ChangeSet"

def FailedChange.codec : Codec FailedChange :=
  (FailedChange.mk
    <$> fixed "change" Change.codec (·.change)
    <*> fixed "error" .text (·.error)).codec "ApplyError"

def ApplyReport.codec : Codec ApplyReport :=
  (ApplyReport.mk
    <$> preset "applied" .whole 0 (·.applied)
    <*> preset "failed" .whole 0 (·.failed)
    <*> preset "skipped" .whole 0 (·.skipped)
    <*> preset "errors" FailedChange.codec.list [] (·.errors)).codec "ApplyResult"

end Steward
