import Steward.Compile.ClientUrl
import Steward.Compile.Prune
import Steward.Digest.Sha256
import Steward.Json.Printer
import Steward.Managed

/-!
# Compiling

A managed resource, the values of its secrets and the capabilities of its service make the desired
configuration: each section of the specification becomes a section of the configuration, names are
prefixed so that they never meet those of items made by hand, and what the service cannot do is
pruned.  The configuration carries a digest of what it was made from, secret values excepted.

This is `BasicCompiler` with `hash_inputs`: `manager` is its `_compile_arr`, `aggregator` its
`_compile_prowlarr`.
-/

namespace Steward

/-- Values of secrets: the key of the connection under `apiKey`, every other value under
`secretMapKey`. -/
abbrev SecretMap := Table String

namespace SecretMap

def connectionKey : String := "apiKey"

/-- The keys of a secret that are used where a reference names none. -/
def standardApiKey : String := "apiKey"
def standardUsername : String := "username"
def standardPassword : String := "password"

/-- The key of a value that comes from a secret (`secret_map_key`). -/
def keyOf (secret key : String) : String := secret ++ "/" ++ key

/-- A value, or the empty text. -/
def value (m : SecretMap) (key : String) : String := (Table.get? m key).getD ""

/-- The value of a reference, or the empty text. -/
def referenced (m : SecretMap) (ref : Option Spec.KeyRef) (defaultKey : String) : String :=
  match ref with
  | some r =>
    let key := match r.key with
      | some k => if k.isEmpty then defaultKey else k
      | none => defaultKey
    m.value (keyOf r.name key)
  | none => ""

/-- The user name and password of a reference, or empty texts. -/
def credentials (m : SecretMap) (ref : Option Spec.CredentialsRef) : String × String :=
  match ref with
  | some r => (m.value (keyOf r.name r.usernameKey), m.value (keyOf r.name r.passwordKey))
  | none => ("", "")

end SecretMap

namespace Compile

/-! ## 1. Names and connections -/

/-- The name of an item that the controller manages (`_managed_name`). -/
def itemName (pre : String) (m : Managed) (name : String) : String :=
  pre ++ "-" ++ m.name ++ "-" ++ name

/-- The connection of a resource with its key. -/
def connection (m : Managed) (secrets : SecretMap) : State.Connection where
  url := m.connection.url
  apiKey := secrets.value SecretMap.connectionKey
  insecureSkipVerify := m.connection.insecureSkipVerify
  timeout := m.connection.timeout.map Int.ofNat

/-! ## 2. Sections -/

def downloadClient (pre : String) (m : Managed) (secrets : SecretMap) (c : Spec.DownloadClient) :
    Except CompileError State.DownloadClient := do
  let url ← ClientUrl.parse c.url
  let own := c.implementation.getD ""
  let implementation :=
    if own.isEmpty then url.implementation else Implementation.normalize own
  if implementation.isEmpty then throw (.noImplementation c.name c.url)
  let (username, password) := secrets.credentials c.credentialsRef
  return { name := itemName pre m c.name, implementation
           protocol := Implementation.protocol implementation
           host := url.host, port := url.port, useSsl := url.useSsl, urlBase := url.urlBase
           username, password, category := c.category.getD "", priority := c.priority.getD 1
           enabled := c.enabled }

/-- Clients in order, up to the first that cannot be compiled (`_compile_download_clients`). -/
def downloadClients (pre : String) (m : Managed) (secrets : SecretMap) :
    Except CompileError (List State.DownloadClient) :=
  m.declared.downloadClients.mapM (downloadClient pre m secrets)

def indexer (pre : String) (m : Managed) (secrets : SecretMap) (i : Spec.DirectIndexer) :
    State.Indexer where
  name := itemName pre m i.name
  implementation := i.implementation
  protocol := Implementation.protocol i.implementation
  url := i.url
  apiKey := secrets.referenced i.apiKeyRef SecretMap.standardApiKey
  categories := i.categories
  priority := i.priority.getD 25
  enabled := i.enabled

/-- Settings of a list: its own, overlaid by the values whose key begins with the name of its
secret. -/
def listSettings (secrets : SecretMap) (l : Spec.ImportList) : Json.Members :=
  match l.settingsRef with
  | some r =>
    let lead := (r.name ++ "/").toList
    Table.setAll l.settings <| secrets.filterMap fun (key, value) =>
      if lead.isPrefixOf key.toList then
        some (String.ofList (key.toList.drop lead.length), Json.string value)
      else none
  | none => l.settings

def importList (pre : String) (m : Managed) (secrets : SecretMap) (l : Spec.ImportList) :
    State.ImportList where
  name := itemName pre m l.name
  type := l.type
  enabled := l.enabled
  enableAuto := l.enableAuto
  searchOnAdd := l.searchOnAdd
  qualityProfileName := l.qualityProfileName.getD ""
  rootFolderPath := l.rootFolderPath.getD ""
  settings := listSettings secrets l

def authentication (secrets : SecretMap) (a : Spec.Authentication) : State.Authentication where
  method := a.method
  username := a.username.getD ""
  password := secrets.referenced a.passwordRef SecretMap.standardPassword
  authenticationRequired := a.authenticationRequired.getD ""

/-- The preset of a specification that names none (`DEFAULT_QUALITY_PRESET`). -/
def defaultPreset : String := "balanced"

/-- The sections of an acquisition manager, before pruning (`_compile_arr`). -/
def manager (pre : String) (m : Managed) (spec : Spec.Manager) (secrets : SecretMap) :
    Except CompileError ServiceState := do
  let clients ← downloadClients pre m secrets
  let preset := spec.qualityPreset.getD ""
  return { app := m.service
           connection := some (connection m secrets)
           quality := some { preset := if preset.isEmpty then defaultPreset else preset
                             profileName := pre ++ "-" ++ m.name }
           downloadClients := clients
           indexers := spec.indexers.map fun i =>
             { aggregatorManaged := i.aggregatorRef.isSome
               direct := i.direct.map (indexer pre m secrets) }
           rootFolders := spec.rootFolders.map (⟨·⟩)
           pathMappings := spec.pathMappings.map fun p => ⟨p.host, p.remotePath, p.localPath⟩
           importLists := spec.importLists.map (importList pre m secrets)
           mediaManagement := spec.mediaManagement
           authentication := spec.authentication.map (authentication secrets) }

/-! ## 3. Sections of an aggregator -/

def aggregatorIndexer (pre : String) (m : Managed) (secrets : SecretMap)
    (i : Spec.AggregatorIndexer) : State.AggregatorIndexer where
  name := itemName pre m i.name
  definition := i.definition
  enable := i.enabled
  priority := i.priority.getD 25
  baseUrl := i.baseUrl.getD ""
  apiKey := secrets.referenced i.apiKeyRef SecretMap.standardApiKey
  tags := i.tags

def proxy (pre : String) (m : Managed) (secrets : SecretMap) (p : Spec.Proxy) : State.Proxy :=
  let (username, password) := secrets.credentials p.credentialsRef
  { name := itemName pre m p.name, type := p.type, host := p.host, port := p.port.getD 0
    username, password, tags := p.tags }

def application (pre : String) (m : Managed) (secrets : SecretMap) (a : Spec.Application) :
    State.Application where
  name := itemName pre m a.name
  type := a.type
  url := a.url
  apiKey := secrets.referenced a.apiKeyRef SecretMap.standardApiKey
  aggregatorUrl := m.connection.url
  syncCategories :=
    if a.syncCategories.isEmpty then usualCategories a.type else a.syncCategories
  syncLevel := a.syncLevel

/-- The sections of an aggregator (`_compile_prowlarr`). -/
def aggregator (pre : String) (m : Managed) (spec : Spec.Aggregator) (secrets : SecretMap) :
    Except CompileError ServiceState := do
  let clients ← downloadClients pre m secrets
  return { app := m.service
           connection := some (connection m secrets)
           aggregator := some
             { indexers := spec.indexers.map (aggregatorIndexer pre m secrets)
               proxies := spec.proxies.map (proxy pre m secrets)
               applications := spec.applications.map (application pre m secrets)
               downloadClients := clients } }

/-! ## 4. The whole -/

variable [Validator] [Json.Room]

/-- What a configuration is made from, secret values excepted. -/
def source (m : Managed) : Except WriteError Json := do
  return .object [("app", .string m.service), ("name", .string m.name),
    ("spec", .object (← m.declared.document))]

/-- The text that is digested to tell whether what a configuration is made from has changed
(`hash_inputs`). -/
def sourceText (m : Managed) : Except WriteError String := do
  (← source m).canonicalDump

/-- The digest of what a configuration is made from. -/
def sourceHash (m : Managed) : Except WriteError String := do
  return String.ofList ((Digest.ofText (← sourceText m)).toList.take 16)

/-- All sections, before pruning. -/
def sections (pre : String) (m : Managed) (secrets : SecretMap) :
    Except CompileError ServiceState :=
  match m.declared with
  | .manager _ spec => manager pre m spec secrets
  | .aggregator spec => aggregator pre m spec secrets

end Compile

variable [Validator] [Json.Room] in
/-- The desired configuration of a resource; `pre` leads the names of the items that the controller
manages. -/
def compile (pre : String) (m : Managed) (secrets : SecretMap) (caps : Capabilities) :
    Except CompileError ServiceState := do
  let s ← Compile.sections pre m secrets
  let (kept, unrealized) := prune caps s
  let sourceHash ← (Compile.sourceHash m).mapError .unwritable
  return { kept with unrealized, sourceHash }

end Steward
