import Steward.Spec.Connection
import Steward.Text.Case

/-!
# Specifications of aggregators

What a user declares for the service that holds the indexers and passes them on to the acquisition
managers registered with it.

This is `ProwlarrConfigSpec` with its parts.
-/

namespace Steward.Spec

open Block

variable [Validator]

/-- An indexer of the aggregator (`ProwlarrIndexerSpec`). -/
structure AggregatorIndexer where
  name : String
  definition : String
  baseUrl : Option String
  apiKeyRef : Option KeyRef
  priority : Option Int
  enabled : Bool
  tags : List String
  deriving DecidableEq, Repr

def AggregatorIndexer.block : Block AggregatorIndexer AggregatorIndexer :=
  AggregatorIndexer.mk
    <$> required "name" "name" .text (·.name)
    <*> required "definition" "definition" .text (·.definition)
    <*> optional "baseUrl" "base_url" .text (·.baseUrl)
    <*> optional "apiKeySecretRef" "api_key_secret_ref" KeyRef.codec (·.apiKeyRef)
    <*> optional "priority" "priority" .whole (·.priority)
    <*> defaulted "enabled" "enabled" .flag true (·.enabled)
    <*> defaulted "tags" "tags" Codec.text.list [] (·.tags)

def AggregatorIndexer.codec : Codec AggregatorIndexer :=
  AggregatorIndexer.block.codec "ProwlarrIndexerSpec"

/-- A proxy that indexers are reached through (`ProwlarrProxySpec`). -/
structure Proxy where
  name : String
  type : String
  host : String
  port : Option Int
  credentialsRef : Option CredentialsRef
  tags : List String
  deriving DecidableEq, Repr

def Proxy.block : Block Proxy Proxy :=
  Proxy.mk
    <$> required "name" "name" .text (·.name)
    <*> required "type" "type" .text (·.type)
    <*> required "host" "host" .text (·.host)
    <*> optional "port" "port" .whole (·.port)
    <*> optional "credentialsSecretRef" "credentials_secret_ref" CredentialsRef.codec
      (·.credentialsRef)
    <*> defaulted "tags" "tags" Codec.text.list [] (·.tags)

def Proxy.codec : Codec Proxy := Proxy.block.codec "ProwlarrProxySpec"

/-- A service that the aggregator itself declares as one of its applications
(`ProwlarrApplicationSpec`).  The type is kept in lower case. -/
structure Application where
  name : String
  type : String
  url : String
  apiKeyRef : Option KeyRef
  syncCategories : List Int
  syncLevel : String
  deriving DecidableEq, Repr

/-- Text that is kept in lower case. -/
def lowerText : Codec String where
  read v := (Codec.text.read v).map Text.lower
  write := .string

def Application.block : Block Application Application :=
  Application.mk
    <$> required "name" "name" .text (·.name)
    <*> required "type" "type" lowerText (·.type)
    <*> required "url" "url" .text (·.url)
    <*> optional "apiKeySecretRef" "api_key_secret_ref" KeyRef.codec (·.apiKeyRef)
    <*> defaulted "syncCategories" "sync_categories" Codec.whole.list [] (·.syncCategories)
    <*> defaulted "syncLevel" "sync_level" .text "fullSync" (·.syncLevel)

def Application.codec : Codec Application := Application.block.codec "ProwlarrApplicationSpec"

/-- The specification of an aggregator (`ProwlarrConfigSpec`). -/
structure Aggregator where
  connection : Connection
  indexers : List AggregatorIndexer
  proxies : List Proxy
  applications : List Application
  downloadClients : List DownloadClient
  tuning : Option Tuning
  deriving DecidableEq, Repr

def Aggregator.block : Block Aggregator Aggregator :=
  Aggregator.mk
    <$> required "connection" "connection" Connection.codec (·.connection)
    <*> defaulted "indexers" "indexers" AggregatorIndexer.codec.list [] (·.indexers)
    <*> defaulted "proxies" "proxies" Proxy.codec.list [] (·.proxies)
    <*> defaulted "applications" "applications" Application.codec.list [] (·.applications)
    <*> defaulted "downloadClients" "download_clients" DownloadClient.codec.list []
      (·.downloadClients)
    <*> optional "reconciliation" "reconciliation" Tuning.codec (·.tuning)

def Aggregator.codec : Codec Aggregator := Aggregator.block.codec "ProwlarrConfigSpec"

end Steward.Spec
