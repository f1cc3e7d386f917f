import Steward.Spec.Connection

/-!
# Specifications of acquisition managers

What a user declares for one acquisition manager: the download clients, indexers, folders and
lists it should have, and how it is reached.

This is `ArrConfigSpec` with its parts.
-/

namespace Steward.Spec

open Block

variable [Validator]

/-- A reference to the aggregator that provides the indexers (`ProwlarrRef`). -/
structure AggregatorRef where
  name : String
  autoRegister : Bool
  included : List String
  excluded : List String
  deriving DecidableEq, Repr

def AggregatorRef.block : Block AggregatorRef AggregatorRef :=
  AggregatorRef.mk
    <$> required "name" "name" .text (·.name)
    <*> defaulted "autoRegister" "auto_register" .flag true (·.autoRegister)
    <*> defaulted "include" "include" Codec.text.list [] (·.included)
    <*> defaulted "exclude" "exclude" Codec.text.list [] (·.excluded)

def AggregatorRef.codec : Codec AggregatorRef := AggregatorRef.block.codec "ProwlarrRef"

/-- An indexer that the service talks to itself (`DirectIndexerSpec`). -/
structure DirectIndexer where
  name : String
  implementation : String
  url : String
  apiKeyRef : Option KeyRef
  categories : List Int
  priority : Option Int
  enabled : Bool
  deriving DecidableEq, Repr

def DirectIndexer.block : Block DirectIndexer DirectIndexer :=
  DirectIndexer.mk
    <$> required "name" "name" .text (·.name)
    <*> defaulted "implementation" "implementation" .text "Torznab" (·.implementation)
    <*> required "url" "url" .text (·.url)
    <*> optional "apiKeySecretRef" "api_key_secret_ref" KeyRef.codec (·.apiKeyRef)
    <*> defaulted "categories" "categories" Codec.whole.list [] (·.categories)
    <*> optional "priority" "priority" .whole (·.priority)
    <*> defaulted "enabled" "enabled" .flag true (·.enabled)

def DirectIndexer.codec : Codec DirectIndexer := DirectIndexer.block.codec "DirectIndexerSpec"

/-- Where a service finds its indexers (`IndexersSpec`). -/
structure Indexers where
  aggregatorRef : Option AggregatorRef
  direct : List DirectIndexer
  deriving DecidableEq, Repr

def Indexers.block : Block Indexers Indexers :=
  Indexers.mk
    <$> optional "prowlarrRef" "prowlarr_ref" AggregatorRef.codec (·.aggregatorRef)
    <*> defaulted "direct" "direct" DirectIndexer.codec.list [] (·.direct)

def Indexers.codec : Codec Indexers := Indexers.block.codec "IndexersSpec"

/-- A list that items are imported from; every key of its secret becomes a setting
(`ImportListSpec`). -/
structure ImportList where
  name : String
  type : String
  enabled : Bool
  enableAuto : Bool
  searchOnAdd : Bool
  qualityProfileName : Option String
  rootFolderPath : Option String
  settings : Json.Members
  settingsRef : Option KeyRef
  deriving DecidableEq, Repr

def ImportList.block : Block ImportList ImportList :=
  ImportList.mk
    <$> required "name" "name" .text (·.name)
    <*> required "type" "type" .text (·.type)
    <*> defaulted "enabled" "enabled" .flag true (·.enabled)
    <*> defaulted "enableAuto" "enable_auto" .flag true (·.enableAuto)
    <*> defaulted "searchOnAdd" "search_on_add" .flag false (·.searchOnAdd)
    <*> optional "qualityProfileName" "quality_profile_name" .text (·.qualityProfileName)
    <*> optional "rootFolderPath" "root_folder_path" .text (·.rootFolderPath)
    <*> defaulted "settings" "settings" .freeForm [] (·.settings)
    <*> optional "settingsSecretRef" "settings_secret_ref" KeyRef.codec (·.settingsRef)

def ImportList.codec : Codec ImportList := ImportList.block.codec "ImportListSpec"

/-- How users log in to the service (`AuthenticationSpec`). -/
structure Authentication where
  method : String
  username : Option String
  passwordRef : Option KeyRef
  authenticationRequired : Option String
  deriving DecidableEq, Repr

def Authentication.block : Block Authentication Authentication :=
  Authentication.mk
    <$> defaulted "method" "method" .text "forms" (·.method)
    <*> optional "username" "username" .text (·.username)
    <*> optional "passwordSecretRef" "password_secret_ref" KeyRef.codec (·.passwordRef)
    <*> optional "authenticationRequired" "authentication_required" .text
      (·.authenticationRequired)

def Authentication.codec : Codec Authentication := Authentication.block.codec "AuthenticationSpec"

/-- How the service treats files; what is left out is left as it is (`MediaManagementSpec`). -/
structure MediaManagement where
  recycleBin : Option String
  recycleBinCleanupDays : Option Int
  setPermissions : Option Bool
  chmodFolder : Option String
  chownGroup : Option String
  deleteEmptyFolders : Option Bool
  createEmptyFolders : Option Bool
  useHardlinks : Option Bool
  watchLibraryForChanges : Option Bool
  deriving DecidableEq, Repr

def MediaManagement.block : Block MediaManagement MediaManagement :=
  MediaManagement.mk
    <$> optional "recycleBin" "recycle_bin" .text (·.recycleBin)
    <*> optional "recycleBinCleanupDays" "recycle_bin_cleanup_days" .whole
      (·.recycleBinCleanupDays)
    <*> optional "setPermissions" "set_permissions" .flag (·.setPermissions)
    <*> optional "chmodFolder" "chmod_folder" .text (·.chmodFolder)
    <*> optional "chownGroup" "chown_group" .text (·.chownGroup)
    <*> optional "deleteEmptyFolders" "delete_empty_folders" .flag (·.deleteEmptyFolders)
    <*> optional "createEmptyFolders" "create_empty_folders" .flag (·.createEmptyFolders)
    <*> optional "useHardlinks" "use_hardlinks" .flag (·.useHardlinks)
    <*> optional "watchLibraryForChanges" "watch_library_for_changes" .flag
      (·.watchLibraryForChanges)

def MediaManagement.codec : Codec MediaManagement :=
  MediaManagement.block.codec "MediaManagementSpec"

/-- Where a path of a download client is found on the service (`RemotePathMappingSpec`). -/
structure PathMapping where
  host : String
  remotePath : String
  localPath : String
  deriving DecidableEq, Repr

def PathMapping.block : Block PathMapping PathMapping :=
  PathMapping.mk
    <$> required "host" "host" .text (·.host)
    <*> required "remotePath" "remote_path" .text (·.remotePath)
    <*> required "localPath" "local_path" .text (·.localPath)

def PathMapping.codec : Codec PathMapping := PathMapping.block.codec "RemotePathMappingSpec"

/-- The specification of an acquisition manager (`ArrConfigSpec`). -/
structure Manager where
  connection : Connection
  qualityPreset : Option String
  downloadClients : List DownloadClient
  indexers : Option Indexers
  rootFolders : List String
  pathMappings : List PathMapping
  importLists : List ImportList
  mediaManagement : Option MediaManagement
  authentication : Option Authentication
  tuning : Option Tuning
  deriving DecidableEq, Repr

def Manager.block : Block Manager Manager :=
  Manager.mk
    <$> required "connection" "connection" Connection.codec (·.connection)
    <*> optional "qualityPreset" "quality_preset" .text (·.qualityPreset)
    <*> defaulted "downloadClients" "download_clients" DownloadClient.codec.list []
      (·.downloadClients)
    <*> optional "indexers" "indexers" Indexers.codec (·.indexers)
    <*> defaulted "rootFolders" "root_folders" Codec.text.list [] (·.rootFolders)
    <*> defaulted "remotePathMappings" "remote_path_mappings" PathMapping.codec.list []
      (·.pathMappings)
    <*> defaulted "importLists" "import_lists" ImportList.codec.list [] (·.importLists)
    <*> optional "mediaManagement" "media_management" MediaManagement.codec (·.mediaManagement)
    <*> optional "authentication" "authentication" Authentication.codec (·.authentication)
    <*> optional "reconciliation" "reconciliation" Tuning.codec (·.tuning)

def Manager.codec : Codec Manager := Manager.block.codec "ArrConfigSpec"

end Steward.Spec
