import Steward.Proofs.Secret.Fixed
import Steward.Proofs.Fallible
import Steward.Proofs.Table

/-!
# References to secrets

The specification of a resource refers to secrets in eight places (`Origin`).  A reference is to one
key of a secret or to all of them, and each of its values has a place in the map that secrets are
resolved into.  Here it is said, apart from the pass that resolves them, which references a
specification has and in which order (`references`), when a reference resolves in a vault that does
not change (`Reference.Resolves`), how it fails (`Reference.Fails`), and which keys and values it is
about (`Reference.Covers`, `Holds`).
-/

namespace Steward.Secret

/-! ## 1. What a specification refers to -/

/-- The places of a specification that refer to secrets. -/
inductive Origin where
  | connection
  | downloadClients
  | directIndexers
  | aggregatorIndexers
  | proxies
  | applications
  | importLists
  | authentication
  deriving DecidableEq, Repr

/-- A reference to one key of a secret, or to all of them. -/
structure Reference where
  /-- What the values are needed for, as errors say it. -/
  purpose : String
  /-- Where the value goes, if not under the names of its secret and its key. -/
  slot : Option String
  secret : String
  /-- The key; none if the reference is to all. -/
  key : Option String
  deriving DecidableEq, Repr

namespace Origin

/-- In the order in which they are resolved. -/
def inOrder : List Origin :=
  [.connection, .downloadClients, .directIndexers, .aggregatorIndexers, .proxies, .applications,
    .importLists, .authentication]

def purpose : Origin → String
  | .connection => "failed to resolve API key secret"
  | .downloadClients => "failed to resolve download client credentials"
  | .directIndexers => "failed to resolve indexer API key"
  | .aggregatorIndexers => "failed to resolve Prowlarr indexer API key"
  | .proxies => "failed to resolve proxy credentials"
  | .applications => "failed to resolve application API key"
  | .importLists => "failed to get import list secret"
  | .authentication => "failed to resolve authentication password"

/-- The key of the connection has a name of its own. -/
def slot : Origin → Option String
  | .connection => some SecretMap.connectionKey
  | _ => none

def reference (o : Origin) (secret : String) (key : Option String) : Reference :=
  ⟨o.purpose, o.slot, secret, key⟩

/-- One key; the default if none is named, or an empty one. -/
def one (o : Origin) (default : String) (ref : Option Spec.KeyRef) : List Reference :=
  ref.toList.map fun r => o.reference r.name (keyOr r.key default)

/-- The user name, then the password. -/
def login (o : Origin) (ref : Option Spec.CredentialsRef) : List Reference :=
  ref.toList.flatMap fun r =>
    [o.reference r.name (keyOr r.usernameKey SecretMap.standardUsername),
      o.reference r.name (keyOr r.passwordKey SecretMap.standardPassword)]

def whole (o : Origin) (ref : Option Spec.KeyRef) : List Reference :=
  ref.toList.map fun r => o.reference r.name none

/-- The references of one place. -/
def references (d : Declared) : Origin → List Reference
  | .connection => connection.one SecretMap.standardApiKey d.connection.apiKeyRef
  | .downloadClients => d.downloadClients.flatMap fun c => downloadClients.login c.credentialsRef
  | .directIndexers => d.directIndexers.flatMap fun i =>
      directIndexers.one SecretMap.standardApiKey i.apiKeyRef
  | .aggregatorIndexers => d.aggregatorIndexers.flatMap fun i =>
      aggregatorIndexers.one SecretMap.standardApiKey i.apiKeyRef
  | .proxies => d.proxies.flatMap fun p => proxies.login p.credentialsRef
  | .applications => d.applications.flatMap fun a =>
      applications.one SecretMap.standardApiKey a.apiKeyRef
  | .importLists => d.importLists.flatMap fun l => importLists.whole l.settingsRef
  | .authentication => d.authentication.toList.flatMap fun a =>
      authentication.one SecretMap.standardPassword a.passwordRef

end Origin

/-- The references of a specification in the order in which they are resolved. -/
def references (d : Declared) : List Reference := Origin.inOrder.flatMap (Origin.references d)

theorem mem_references {d : Declared} {r : Reference} (o : Origin) (h : r ∈ o.references d) :
    r ∈ references d :=
  List.mem_flatMap.mpr ⟨o, by cases o <;> decide, h⟩

/-! ## 2. What a vault makes of a reference -/

/-- The vault holds the value under this key of the secret. -/
def Holds (f : Vault) (ns secret key value : String) : Prop :=
  ∃ data stored, f ns secret = .ok (some data) ∧ (key, stored) ∈ data ∧ decode stored = .ok value

namespace Reference

variable {f : Vault} {ns : String} {r : Reference} {e : Failure}

/-- Where the value of a key goes. -/
def place (r : Reference) (key : String) : String := r.slot.getD (SecretMap.keyOf r.secret key)

/-- The reference is to this key: the one that it names, or any that the secret has. -/
def Covers (f : Vault) (ns : String) (r : Reference) (key : String) : Prop :=
  match r.key with
  | some named => key = named
  | none => ∃ data, f ns r.secret = .ok (some data) ∧ key ∈ Table.keys data

theorem covers_of_some {key named : String} (h : r.key = some named) :
    r.Covers f ns key ↔ key = named := by
  rw [Covers, h]

theorem covers_of_none {key : String} (h : r.key = none) :
    r.Covers f ns key ↔ ∃ data, f ns r.secret = .ok (some data) ∧ key ∈ Table.keys data := by
  rw [Covers, h]

/-- The secret is there, it has the key, and the value can be decoded; of all keys, every value. -/
def Resolves (f : Vault) (ns : String) (r : Reference) : Prop :=
  ∃ data, f ns r.secret = .ok (some data) ∧
    match r.key with
    | some key => ∃ stored value, Table.get? data key = some stored ∧ decode stored = .ok value
    | none => ∀ entry ∈ data, ∃ value, decode entry.2 = .ok value

/-- The error of a reference that does not resolve. -/
inductive Fails (f : Vault) (ns : String) (r : Reference) : Failure → Prop where
  /-- The store fails to read the secret. -/
  | unread {e : Failure} : f ns r.secret = .error e → Fails f ns r e
  | notFound : f ns r.secret = .ok none → Fails f ns r (.secret (.notFound ns r.secret r.purpose))
  | noKey {data : SecretData} {key : String} :
      f ns r.secret = .ok (some data) → r.key = some key → Table.get? data key = none →
        Fails f ns r (.secret (.noKey ns r.secret key r.purpose))
  | undecodable {data : SecretData} {key stored : String} {e : SecretError} :
      f ns r.secret = .ok (some data) → r.key = some key → Table.get? data key = some stored →
        decode stored = .error e → Fails f ns r (.secret e)
  /-- Of all keys, the first value that cannot be decoded. -/
  | undecodableEntry {data before after : SecretData} {entry : String × String} {e : SecretError} :
      f ns r.secret = .ok (some data) → r.key = none → data = before ++ entry :: after →
        (∀ b ∈ before, ∃ value, decode b.2 = .ok value) → decode entry.2 = .error e →
          Fails f ns r (.secret e)

end Reference

/-! ## 3. Reading a reference -/

section Reading

variable {f : Vault} {ns name key purpose value : String} {e : Failure}

theorem dataIn_eq_ok_iff {data : SecretData} :
    dataIn f ns name purpose = .ok data ↔ f ns name = .ok (some data) := by
  rw [dataIn]
  split <;> simp_all

theorem fails_of_dataIn {r : Reference} (h : dataIn f ns r.secret r.purpose = .error e) :
    r.Fails f ns e := by
  rw [dataIn] at h
  split at h
  · cases h
  · rename_i hnone
    cases h
    exact .notFound hnone
  · rename_i herror
    cases h
    exact .unread herror

theorem valueIn_eq_ok_iff :
    valueIn f ns name key purpose = .ok value ↔ ∃ data stored, f ns name = .ok (some data) ∧
      Table.get? data key = some stored ∧ decode stored = .ok value := by
  rw [valueIn]
  cases hdata : dataIn f ns name purpose with
  | error e =>
    refine iff_of_false (fun h => by cases h) ?_
    rintro ⟨data, stored, hf, -⟩
    rw [dataIn_eq_ok_iff.mpr hf] at hdata
    cases hdata
  | ok data =>
    rw [dataIn_eq_ok_iff] at hdata
    simp only [hdata, Except.ok.injEq, Option.some.injEq]
    cases hstored : Table.get? data key with
    | none => simp [hstored]
    | some stored => simp [hstored, mapError_eq_ok_iff]

theorem fails_of_valueIn {r : Reference} (hkey : r.key = some key)
    (h : valueIn f ns r.secret key r.purpose = .error e) : r.Fails f ns e := by
  rw [valueIn] at h
  cases hdata : dataIn f ns r.secret r.purpose with
  | error e' =>
    rw [hdata] at h
    cases h
    exact fails_of_dataIn hdata
  | ok data =>
    rw [hdata] at h
    dsimp only at h
    cases hstored : Table.get? data key with
    | none =>
      rw [hstored] at h
      cases h
      exact .noKey (dataIn_eq_ok_iff.mp hdata) hkey hstored
    | some stored =>
      rw [hstored] at h
      obtain ⟨error, hvalue, rfl⟩ := mapError_eq_error_iff.mp h
      exact .undecodable (dataIn_eq_ok_iff.mp hdata) hkey hstored hvalue

theorem decoded_eq_ok_iff {entry result : String × String} :
    decoded entry = .ok result ↔ result.1 = entry.1 ∧ decode entry.2 = .ok result.2 := by
  rw [decoded, map_eq_ok_iff]
  constructor
  · rintro ⟨value, hvalue, rfl⟩
    exact ⟨rfl, mapError_eq_ok_iff.mp hvalue⟩
  · rintro ⟨hkey, hvalue⟩
    exact ⟨result.2, mapError_eq_ok_iff.mpr hvalue, Prod.ext hkey.symm rfl⟩

theorem exists_decoded_iff {entry : String × String} :
    (∃ result, decoded entry = .ok result) ↔ ∃ value, decode entry.2 = .ok value := by
  simp only [decoded_eq_ok_iff, Prod.exists, exists_and_left, exists_eq_left]

theorem decoded_eq_error {entry : String × String} (h : decoded entry = .error e) :
    ∃ error, e = .secret error ∧ decode entry.2 = .error error := by
  obtain ⟨error, hvalue, rfl⟩ := mapError_eq_error_iff.mp (map_eq_error_iff.mp h)
  exact ⟨error, rfl, hvalue⟩

theorem valuesIn_eq_ok_iff {values : Table String} :
    valuesIn f ns name purpose = .ok values ↔
      ∃ data, f ns name = .ok (some data) ∧ data.mapM decoded = .ok values := by
  simp only [valuesIn, bind_eq_ok_iff, dataIn_eq_ok_iff]

theorem fails_of_valuesIn {r : Reference} (hkey : r.key = none)
    (h : valuesIn f ns r.secret r.purpose = .error e) : r.Fails f ns e := by
  rcases bind_eq_error_iff.mp h with hdata | ⟨data, hdata, hall⟩
  · exact fails_of_dataIn hdata
  · obtain ⟨before, entry, after, hsplit, hbefore, hentry⟩ := mapM_eq_error hall
    obtain ⟨error, rfl, hvalue⟩ := decoded_eq_error hentry
    exact .undecodableEntry (dataIn_eq_ok_iff.mp hdata) hkey hsplit
      (fun b hb => exists_decoded_iff.mp (hbefore b hb)) hvalue

end Reading

namespace Reference

variable {f : Vault} {ns : String} {r : Reference} {e : Failure}

/-- The values of a reference, each at its place. -/
def read (f : Vault) (ns : String) (r : Reference) : Except Failure (List (String × String)) :=
  match r.key with
  | some key => (valueIn f ns r.secret key r.purpose).map fun value => [(r.place key, value)]
  | none => (valuesIn f ns r.secret r.purpose).map (·.map fun entry => (r.place entry.1, entry.2))

/-- **A reference is read if it resolves.** -/
theorem exists_read_iff : (∃ es, r.read f ns = .ok es) ↔ r.Resolves f ns := by
  rw [read, Resolves]
  cases r.key with
  | some key =>
    constructor
    · rintro ⟨es, h⟩
      obtain ⟨value, hvalue, -⟩ := map_eq_ok_iff.mp h
      obtain ⟨data, stored, hf, hstored, hdecode⟩ := valueIn_eq_ok_iff.mp hvalue
      exact ⟨data, hf, stored, value, hstored, hdecode⟩
    · rintro ⟨data, hf, stored, value, hstored, hdecode⟩
      exact ⟨_, map_eq_ok_iff.mpr
        ⟨value, valueIn_eq_ok_iff.mpr ⟨data, stored, hf, hstored, hdecode⟩, rfl⟩⟩
  | none =>
    constructor
    · rintro ⟨es, h⟩
      obtain ⟨values, hvalues, -⟩ := map_eq_ok_iff.mp h
      obtain ⟨data, hf, hall⟩ := valuesIn_eq_ok_iff.mp hvalues
      refine ⟨data, hf, fun entry hentry => exists_decoded_iff.mp ?_⟩
      exact exists_mapM_eq_ok_iff.mp ⟨values, hall⟩ entry hentry
    · rintro ⟨data, hf, hall⟩
      obtain ⟨values, hvalues⟩ := exists_mapM_eq_ok_iff.mpr fun entry hentry =>
        exists_decoded_iff.mpr (hall entry hentry)
      exact ⟨_, map_eq_ok_iff.mpr ⟨values, valuesIn_eq_ok_iff.mpr ⟨data, hf, hvalues⟩, rfl⟩⟩

theorem fails_of_read (h : r.read f ns = .error e) : r.Fails f ns e := by
  rw [read] at h
  split at h
  · rename_i key hkey
    exact fails_of_valueIn hkey (map_eq_error_iff.mp h)
  · rename_i hkey
    exact fails_of_valuesIn hkey (map_eq_error_iff.mp h)

/-- What is read is the value of a key that the reference is to, at the place of this key. -/
theorem holds_of_mem_read {es : List (String × String)} {place value : String}
    (h : r.read f ns = .ok es) (hmem : (place, value) ∈ es) :
    ∃ key, r.Covers f ns key ∧ r.place key = place ∧ Holds f ns r.secret key value := by
  rw [read] at h
  split at h
  · rename_i key hkey
    obtain ⟨v, hv, rfl⟩ := map_eq_ok_iff.mp h
    obtain ⟨rfl, rfl⟩ := Prod.mk.inj (List.mem_singleton.mp hmem)
    obtain ⟨data, stored, hf, hstored, hdecode⟩ := valueIn_eq_ok_iff.mp hv
    exact ⟨key, (covers_of_some hkey).mpr rfl, rfl, data, stored, hf, Table.mem_of_get? hstored,
      hdecode⟩
  · rename_i hkey
    obtain ⟨values, hvalues, rfl⟩ := map_eq_ok_iff.mp h
    obtain ⟨data, hf, hall⟩ := valuesIn_eq_ok_iff.mp hvalues
    obtain ⟨⟨key, v⟩, hentry, hpair⟩ := List.mem_map.mp hmem
    obtain ⟨rfl, rfl⟩ := Prod.mk.inj hpair
    obtain ⟨⟨key', stored⟩, hdata, hdecoded⟩ := (mem_mapM hall).mp hentry
    obtain ⟨rfl, hdecode⟩ := decoded_eq_ok_iff.mp hdecoded
    have hcovers := (covers_of_none hkey).mpr ⟨data, hf, List.mem_map_of_mem hdata⟩
    exact ⟨key, hcovers, rfl, data, stored, hf, hdata, hdecode⟩

/-- Every key that the reference is to is read. -/
theorem exists_mem_read {es : List (String × String)} {key : String} (h : r.read f ns = .ok es)
    (hcovers : r.Covers f ns key) : ∃ value, (r.place key, value) ∈ es := by
  rw [read] at h
  split at h
  · rename_i named hkey
    obtain ⟨value, -, rfl⟩ := map_eq_ok_iff.mp h
    rw [(covers_of_some hkey).mp hcovers]
    exact ⟨value, List.mem_singleton_self _⟩
  · rename_i hkey
    obtain ⟨data, hf, hmem⟩ := (covers_of_none hkey).mp hcovers
    obtain ⟨values, hvalues, rfl⟩ := map_eq_ok_iff.mp h
    obtain ⟨data', hf', hall⟩ := valuesIn_eq_ok_iff.mp hvalues
    rw [hf] at hf'
    cases hf'
    obtain ⟨entry, hentry, rfl⟩ := List.mem_map.mp hmem
    obtain ⟨⟨key, value⟩, hdecoded⟩ := exists_mapM_eq_ok_iff.mp ⟨values, hall⟩ entry hentry
    obtain ⟨rfl, -⟩ := decoded_eq_ok_iff.mp hdecoded
    exact ⟨value, List.mem_map.mpr ⟨_, (mem_mapM hall).mpr ⟨entry, hentry, hdecoded⟩, rfl⟩⟩

end Reference

/-! ## 4. Reading all references -/

variable {f : Vault} {ns : String} {rs : List Reference} {es : List (String × String)}

/-- The values of references, one reference after the other. -/
def readAll (f : Vault) (ns : String) (rs : List Reference) :
    Except Failure (List (String × String)) :=
  (rs.mapM (Reference.read f ns)).map List.flatten

theorem readAll_append (rs ts : List Reference) :
    readAll f ns (rs ++ ts) = do return (← readAll f ns rs) ++ (← readAll f ns ts) := by
  rw [readAll, readAll, readAll, List.mapM_append]
  cases rs.mapM (Reference.read f ns) with
  | error e => rfl
  | ok xss =>
    cases ts.mapM (Reference.read f ns) with
    | error e => rfl
    | ok yss => exact congrArg Except.ok List.flatten_append

theorem exists_readAll_iff :
    (∃ es, readAll f ns rs = .ok es) ↔ ∀ r ∈ rs, r.Resolves f ns := by
  simp only [readAll, exists_map_eq_ok_iff, exists_mapM_eq_ok_iff, Reference.exists_read_iff]

/-- References fail as the first one does that does not resolve. -/
theorem fails_of_readAll {e : Failure} (h : readAll f ns rs = .error e) :
    ∃ before r after, rs = before ++ r :: after ∧ (∀ b ∈ before, b.Resolves f ns) ∧
      r.Fails f ns e := by
  obtain ⟨before, r, after, hsplit, hbefore, hr⟩ := mapM_eq_error (map_eq_error_iff.mp h)
  exact ⟨before, r, after, hsplit, fun b hb => Reference.exists_read_iff.mp (hbefore b hb),
    Reference.fails_of_read hr⟩

theorem mem_readAll (h : readAll f ns rs = .ok es) {entry : String × String} :
    entry ∈ es ↔ ∃ r ∈ rs, ∃ part, r.read f ns = .ok part ∧ entry ∈ part := by
  obtain ⟨parts, hparts, rfl⟩ := map_eq_ok_iff.mp h
  rw [List.mem_flatten]
  constructor
  · rintro ⟨part, hpart, hentry⟩
    obtain ⟨r, hr, hread⟩ := (mem_mapM hparts).mp hpart
    exact ⟨r, hr, part, hread, hentry⟩
  · rintro ⟨r, hr, part, hread, hentry⟩
    exact ⟨part, (mem_mapM hparts).mpr ⟨r, hr, hread⟩, hentry⟩

end Steward.Secret
