import Steward.Pass.Request

/-!
# Resolving secrets

All secrets that a resource refers to are read and decoded into one map before anything is
compiled.  The first reference that fails aborts the whole; a secret that was read once is not read
again in the same pass, while one that was missing is.

This is `SecretResolver`: its cache is the one that a pass keeps, and the map is made by
`resolve_for`.
-/

namespace Steward.Secret

/-! ## 1. Reading -/

/-- The name under which a pass keeps a secret. -/
def cacheKey (ns name : String) : String := ns ++ "/" ++ name

/-- The stored values of a secret, from what was read before or from the store (`_fetch`). -/
def fetch (ns name purpose : String) : Pass SecretData := do
  match Table.get? (← Pass.cache) (cacheKey ns name) with
  | some data => return data
  | none =>
    match ← Pass.getSecret ns name with
    | none => throw (.secret (.notFound ns name purpose))
    | some data =>
      Pass.remember (cacheKey ns name) data
      return data

/-- The value of one key (`resolve_value`). -/
def value (ns name key purpose : String) : Pass String := do
  match Table.get? (← fetch ns name purpose) key with
  | none => throw (.secret (.noKey ns name key purpose))
  | some stored => Pass.settle ((decode stored).mapError .secret)

/-- The values of all keys (`resolve_all`). -/
def values (ns name purpose : String) : Pass (Table String) := do
  let data ← fetch ns name purpose
  data.mapM fun (key, stored) => do
    return (key, ← Pass.settle ((decode stored).mapError .secret))

/-! ## 2. References -/

/-- A key that a reference names, or the one used where it names none. -/
def keyOr (key : Option String) (default : String) : String :=
  match key with
  | some k => if k.isEmpty then default else k
  | none => default

/-- What the references of a resource are needed for. -/
inductive Use where
  /-- The key of the connection. -/
  | connection (ref : Spec.KeyRef)
  /-- One key of a secret. -/
  | key (ref : Spec.KeyRef) (default purpose : String)
  /-- A user name and a password. -/
  | credentials (ref : Spec.CredentialsRef) (purpose : String)
  /-- All keys of a secret. -/
  | whole (ref : Spec.KeyRef) (purpose : String)
  deriving DecidableEq, Repr

/-- The key of a connection. -/
def connectionUses (c : Spec.Connection) : List Use := c.apiKeyRef.toList.map .connection

/-- The references of a resource in the order in which they are resolved. -/
def uses (d : Declared) : List Use :=
  let key (default purpose : String) (ref : Option Spec.KeyRef) : List Use :=
    ref.toList.map (.key · default purpose)
  let credentials (purpose : String) (ref : Option Spec.CredentialsRef) : List Use :=
    ref.toList.map (.credentials · purpose)
  connectionUses d.connection ++
  d.downloadClients.flatMap (fun c =>
    credentials "failed to resolve download client credentials" c.credentialsRef) ++
  d.directIndexers.flatMap (fun i =>
    key SecretMap.standardApiKey "failed to resolve indexer API key" i.apiKeyRef) ++
  d.aggregatorIndexers.flatMap (fun i =>
    key SecretMap.standardApiKey "failed to resolve Prowlarr indexer API key" i.apiKeyRef) ++
  d.proxies.flatMap (fun p =>
    credentials "failed to resolve proxy credentials" p.credentialsRef) ++
  d.applications.flatMap (fun a =>
    key SecretMap.standardApiKey "failed to resolve application API key" a.apiKeyRef) ++
  d.importLists.flatMap (fun l =>
    l.settingsRef.toList.map (.whole · "failed to get import list secret")) ++
  d.authentication.toList.flatMap (fun a =>
    key SecretMap.standardPassword "failed to resolve authentication password" a.passwordRef)

/-- The entries that a reference adds to the map. -/
def entries (ns : String) : Use → Pass (List (String × String))
  | .connection ref => do
    let v ← value ns ref.name (keyOr ref.key SecretMap.standardApiKey)
      "failed to resolve API key secret"
    return [(SecretMap.connectionKey, v)]
  | .key ref default purpose => do
    let key := keyOr ref.key default
    return [(SecretMap.keyOf ref.name key, ← value ns ref.name key purpose)]
  | .credentials ref purpose => do
    let username := keyOr (some ref.usernameKey) SecretMap.standardUsername
    let password := keyOr (some ref.passwordKey) SecretMap.standardPassword
    let u ← value ns ref.name username purpose
    let p ← value ns ref.name password purpose
    return [(SecretMap.keyOf ref.name username, u), (SecretMap.keyOf ref.name password, p)]
  | .whole ref purpose => do
    let vs ← values ns ref.name purpose
    return vs.map fun (key, v) => (SecretMap.keyOf ref.name key, v)

/-- Resolve references in order into a map. -/
def resolveUses (ns : String) : SecretMap → List Use → Pass SecretMap
  | m, [] => return m
  | m, u :: rest => do
    let es ← entries ns u
    resolveUses ns (Table.setAll m es) rest

/-- The key of a connection as a map (`resolve_connection`). -/
def resolveConnection (ns : String) (c : Spec.Connection) : Pass SecretMap :=
  resolveUses ns [] (connectionUses c)

/-- All secrets that a resource refers to (`resolve_for`). -/
def resolve (m : Managed) : Pass SecretMap := resolveUses m.ns [] (uses m.declared)

/-! ## 3. The key of a registration -/

/-- Where the key that a service is registered with is looked for: its own reference, the secret of
its type, the secret of its name. -/
def registrationCandidates (m : Managed) : List (String × String) :=
  (m.connection.apiKeyRef.toList.map fun r => (r.name, keyOr r.key SecretMap.standardApiKey)) ++
  [(m.service ++ "-api-key", SecretMap.standardApiKey),
    (m.name ++ "-api-key", SecretMap.standardApiKey)]

/-- The first candidate whose value is not empty; `failures` are the texts of those that failed. -/
def firstUsable (m : Managed) (failures : List String) : List (String × String) → Pass String
  | [] => throw (.secret (.noRegistrationKey m.service m.name failures))
  | (name, key) :: rest => do
    match ← Pass.attempt (value m.ns name key "") with
    | .ok v => if v.isEmpty then firstUsable m failures rest else return v
    | .error (.secret e) => firstUsable m (failures ++ [e.message]) rest
    | .error e => throw e

/-- The key that a service is registered with (`resolve_registration_api_key`). -/
def registrationKey (m : Managed) : Pass String := firstUsable m [] (registrationCandidates m)

end Steward.Secret
