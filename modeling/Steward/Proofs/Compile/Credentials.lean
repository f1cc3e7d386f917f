import Steward.Proofs.Compile.Sections
import Steward.Proofs.Secret.Complete

/-!
# Credentials in a configuration

Secrets are resolved into one map (`SecretResolver.resolve_for`), and a configuration is compiled
(`BasicCompiler.compile`) from what the map has under the names of its references.  Every item that
refers to a key carries the value that the vault holds under it (`credentials_carried`), but for two
cases:

* A login that names a key by the empty text is resolved under the standard key, as any other
  reference is, but looked up under the empty one (`_compile_download_clients`).  The item is left
  without it.
* Where references meet at a place of the map (`Alone` says that they do not), all of them carry
  the value of one.
-/

namespace Steward.Compile

open Secret

variable {pre : String} {f : Vault} {m : Managed} {secrets : SecretMap} {caps : Capabilities}
  {desired : ServiceState}

/-! ## 1. What an item carries -/

section

variable (f : Vault) (m : Managed)

/-- The text is the value of a reference to this key, or of one that meets it. -/
structure Carries (secret key text : String) : Prop where
  placed : Placed f m.ns (references m.declared) (SecretMap.keyOf secret key) text
  own : Alone f m.ns (references m.declared) secret key → Holds f m.ns secret key text

/-- One half of a login, by the key that is named for it. -/
structure CarriesHalf (secret key text : String) : Prop where
  named : key ≠ "" → Carries f m secret key text
  /-- The standard key, under which it was resolved, is not looked at. -/
  unnamed : key = "" →
    ¬ Occupied f m.ns (references m.declared) (SecretMap.keyOf secret "") → text = ""
  /-- Unless something else was resolved under the empty key. -/
  met : Occupied f m.ns (references m.declared) (SecretMap.keyOf secret key) →
    Carries f m secret key text

/-- Both halves of a login, if there is one. -/
def CarriesLogin (ref : Option Spec.CredentialsRef) (username password : String) : Prop :=
  ∀ r, ref = some r →
    CarriesHalf f m r.name r.usernameKey username ∧ CarriesHalf f m r.name r.passwordKey password

/-- The value of a reference to one key, if there is one. -/
def CarriesKey (default : String) (ref : Option Spec.KeyRef) (text : String) : Prop :=
  ∀ r, ref = some r → Carries f m r.name (keyOr r.key default) text

/-- The items of a configuration carry what their references are to. -/
structure CredentialsCarried (desired : ServiceState) : Prop where
  downloadClients : List.Forall₂
    (fun c item => CarriesLogin f m c.credentialsRef item.username item.password)
    m.declared.downloadClients desired.clients
  directIndexers : List.Forall₂
    (fun i item => CarriesKey f m SecretMap.standardApiKey i.apiKeyRef item.apiKey)
    m.declared.directIndexers (Diff.directIndexers desired)
  aggregatorIndexers : List.Forall₂
    (fun i item => CarriesKey f m SecretMap.standardApiKey i.apiKeyRef item.apiKey)
    m.declared.aggregatorIndexers (desired.aggregator.getD {}).indexers
  proxies : List.Forall₂
    (fun p item => CarriesLogin f m p.credentialsRef item.username item.password)
    m.declared.proxies (desired.aggregator.getD {}).proxies
  applications : List.Forall₂
    (fun a item => CarriesKey f m SecretMap.standardApiKey a.apiKeyRef item.apiKey)
    m.declared.applications (desired.aggregator.getD {}).applications
  authentication : ∀ a, m.declared.authentication = some a → ∃ item,
    desired.authentication = some item ∧
      CarriesKey f m SecretMap.standardPassword a.passwordRef item.password

end

/-! ## 2. Looking up what was resolved -/

section LookingUp

variable (h : Complete f m.ns (references m.declared) (.ok secrets))
include h

theorem carries_of_occupied {secret key : String}
    (hoccupied : Occupied f m.ns (references m.declared) (SecretMap.keyOf secret key)) :
    Carries f m secret key (secrets.value (SecretMap.keyOf secret key)) := by
  obtain ⟨value, hget⟩ := (h.places _ rfl _).mpr hoccupied
  have hplaced := h.values _ rfl _ _ hget
  rw [SecretMap.value, hget]
  exact ⟨hplaced, fun halone => halone.holds hplaced⟩

theorem value_of_not_occupied {place : String}
    (hfree : ¬ Occupied f m.ns (references m.declared) place) : secrets.value place = "" := by
  rw [SecretMap.value, h.get?_eq_none hfree, Option.getD_none]

theorem carries_reference {o : Origin} (ho : o.slot = none) {secret key : String}
    (hmem : o.reference secret (some key) ∈ references m.declared) :
    Carries f m secret key (secrets.value (SecretMap.keyOf secret key)) := by
  have hplace : (o.reference secret (some key)).place key = SecretMap.keyOf secret key := by
    rw [Reference.place, Origin.reference, ho, Option.getD_none]
  exact carries_of_occupied h ⟨_, hmem, key, rfl, hplace⟩

/-- Where a default is looked up as it was resolved, the value is found. -/
theorem carriesKey_referenced {o : Origin} (ho : o.slot = none) {default : String}
    {ref : Option Spec.KeyRef} (hmem : ∀ r ∈ o.one default ref, r ∈ references m.declared) :
    CarriesKey f m default ref (secrets.referenced ref default) := by
  rintro r rfl
  exact carries_reference h ho (hmem _ (List.mem_singleton_self _))

theorem carriesHalf_value {o : Origin} (ho : o.slot = none) {secret key default : String}
    (hmem : o.reference secret (some (keyOr (some key) default)) ∈ references m.declared) :
    CarriesHalf f m secret key (secrets.value (SecretMap.keyOf secret key)) where
  named hkey := by
    rw [keyOr, if_neg (by rwa [String.isEmpty_iff])] at hmem
    exact carries_reference h ho hmem
  unnamed hkey hfree := by
    subst hkey
    exact value_of_not_occupied h hfree
  met := carries_of_occupied h

theorem carriesLogin_credentials {o : Origin} (ho : o.slot = none)
    {ref : Option Spec.CredentialsRef} (hmem : ∀ r ∈ o.login ref, r ∈ references m.declared) :
    CarriesLogin f m ref (secrets.credentials ref).1 (secrets.credentials ref).2 := by
  rintro r rfl
  exact ⟨carriesHalf_value h ho (hmem _ List.mem_cons_self),
    carriesHalf_value h ho (hmem _ (List.mem_cons_of_mem _ List.mem_cons_self))⟩

end LookingUp

/-! ## 3. Item by item -/

theorem credentials_of_downloadClient {c : Spec.DownloadClient} {item : State.DownloadClient}
    (h : downloadClient pre m secrets c = .ok item) :
    (item.username, item.password) = secrets.credentials c.credentialsRef := by
  rw [downloadClient] at h
  obtain ⟨url, -, h⟩ := bind_eq_ok_iff.mp h
  cases hnone : (if (c.implementation.getD "").isEmpty then url.implementation
    else Implementation.normalize (c.implementation.getD "")).isEmpty with
  | true =>
    simp only [hnone, if_true] at h
    cases h
  | false =>
    simp only [hnone, Bool.false_eq_true, if_false] at h
    cases h
    rfl

section Carried

variable {σ : Type} {world : Program.World Pass.signature σ} {s : σ}

/-- **Compiled items carry what their references were resolved to.**  Where the secrets of a
resource were resolved from a vault, and its configuration was compiled for a service that can do
everything, each item that refers to a key of a secret carries the value of this key, up to
references that meet.  The half of a login whose key is named by the empty text is empty. -/
theorem credentials_carried (hworld : Behind f world) (hfull : caps.Full)
    (hresolved : ((resolve m).program.run world s).1 = .ok secrets)
    (hcompile : compile pre m secrets caps = .ok desired) : CredentialsCarried f m desired := by
  have h := hworld.complete hresolved
  have hitems := compiled_of_compile hfull hcompile
  constructor
  · refine ((List.forall₂_and_left _ _).mpr ⟨fun c hc => hc, hitems.clients⟩).imp ?_
    rintro c item ⟨hc, hitem⟩
    have hmem : ∀ r ∈ Origin.downloadClients.login c.credentialsRef, r ∈ references m.declared :=
      fun r hr => mem_references .downloadClients (List.mem_flatMap.mpr ⟨c, hc, hr⟩)
    have hlogin := carriesLogin_credentials h rfl hmem
    rwa [← credentials_of_downloadClient hitem] at hlogin
  · rw [hitems.directIndexers, List.forall₂_map_right_iff, List.forall₂_same]
    exact fun i hi => carriesKey_referenced h rfl fun r hr =>
      mem_references .directIndexers (List.mem_flatMap.mpr ⟨i, hi, hr⟩)
  · rw [hitems.aggregatorIndexers, List.forall₂_map_right_iff, List.forall₂_same]
    exact fun i hi => carriesKey_referenced h rfl fun r hr =>
      mem_references .aggregatorIndexers (List.mem_flatMap.mpr ⟨i, hi, hr⟩)
  · rw [hitems.proxies, List.forall₂_map_right_iff, List.forall₂_same]
    exact fun p hp => carriesLogin_credentials h rfl fun r hr =>
      mem_references .proxies (List.mem_flatMap.mpr ⟨p, hp, hr⟩)
  · rw [hitems.applications, List.forall₂_map_right_iff, List.forall₂_same]
    exact fun a ha => carriesKey_referenced h rfl fun r hr =>
      mem_references .applications (List.mem_flatMap.mpr ⟨a, ha, hr⟩)
  · intro a ha
    refine ⟨_, by rw [hitems.authentication, ha]; rfl, ?_⟩
    exact carriesKey_referenced h rfl fun r hr =>
      mem_references .authentication (List.mem_flatMap.mpr ⟨a, Option.mem_toList.mpr ha, hr⟩)

/-- A client whose login is resolved is compiled with it. -/
theorem credentials_carried_shows :
    let shows : Resource :=
      { kind := "SonarrConfig", name := "shows"
        spec := [("connection", .object [("url", .string "http://shows")]),
          ("downloadClients", .array [.object [("name", .string "qb"),
            ("url", .string "qbittorrent://qb:8080"),
            ("credentialsSecretRef", .object [("name", .string "qb")])]])] }
    let f : Vault := fun _ name =>
      if name = "qb" then .ok (some [("username", encode "admin"), ("password", encode "secret")])
      else .ok none
    ∃ m secrets desired item, Managed.ofResource shows = .ok m ∧ Behind f (keeping f) ∧
      ({} : Capabilities).Full ∧ ((resolve m).program.run (keeping f) ()).1 = .ok secrets ∧
      compile "arr-operator" m secrets {} = .ok desired ∧ CredentialsCarried f m desired ∧
      desired.clients = [item] ∧ item.username = "admin" ∧
      Holds f m.ns "qb" "username" item.username := by
  intro shows f
  obtain ⟨m, secrets, desired, c, item, hm, hresolved, hcompile, hdeclared, hclients, href,
      husername, hplain⟩ :
      ∃ m secrets desired c item, Managed.ofResource shows = .ok m ∧
        ((resolve m).program.run (keeping f) ()).1 = .ok secrets ∧
        compile "arr-operator" m secrets {} = .ok desired ∧
        m.declared.downloadClients = [c] ∧ desired.clients = [item] ∧
        c.credentialsRef = some ⟨"qb", "username", "password"⟩ ∧ item.username = "admin" ∧
        ∀ r ∈ references m.declared, '/' ∉ r.secret.toList :=
    ⟨_, _, _, _, _, rfl, rfl, rfl, rfl, rfl, rfl, rfl, by decide +kernel⟩
  have hfull : ({} : Capabilities).Full := ⟨by decide, rfl, rfl⟩
  have hcarried := credentials_carried (behind_keeping f) hfull hresolved hcompile
  have hitems := hcarried.downloadClients
  rw [hdeclared, hclients, List.forall₂_cons] at hitems
  have hholds := ((hitems.1 _ href).1.named (by decide)).own (alone_of_plain hplain (by decide) _)
  exact ⟨m, secrets, desired, item, hm, behind_keeping f, hfull, hresolved, hcompile, hcarried,
    hclients, husername, hholds⟩

/-- A client that names the key of its user by the empty text is compiled without a user, although
the standard key was resolved. -/
theorem not_carried_shows :
    ¬ ∀ (σ : Type) (world : Program.World Pass.signature σ) (s : σ) (f : Vault) (pre : String)
        (r : Resource) (m : Managed) (secrets : SecretMap) (caps : Capabilities)
        (desired : ServiceState),
      Managed.ofResource r = .ok m → Behind f world → caps.Full →
      ((resolve m).program.run world s).1 = .ok secrets →
      compile pre m secrets caps = .ok desired →
      List.Forall₂ (fun c item => ∀ ref, c.credentialsRef = some ref →
          Holds f m.ns ref.name (keyOr (some ref.usernameKey) SecretMap.standardUsername)
            item.username)
        m.declared.downloadClients desired.clients := by
  intro h
  let shows : Resource :=
    { kind := "SonarrConfig", name := "shows"
      spec := [("connection", .object [("url", .string "http://shows")]),
        ("downloadClients", .array [.object [("name", .string "qb"),
          ("url", .string "qbittorrent://qb:8080"),
          ("credentialsSecretRef", .object [("name", .string "qb"),
            ("usernameKey", .string "")])]])] }
  let f : Vault := fun _ name =>
    if name = "qb" then .ok (some [("username", encode "admin"), ("password", encode "secret")])
    else .ok none
  have hitems := h Unit (keeping f) () f "arr-operator" shows _ _ {} _ rfl (behind_keeping f)
    ⟨by decide, rfl, rfl⟩ rfl rfl
  obtain ⟨data, stored, hf, hmem, hdecode⟩ := (List.forall₂_cons.mp hitems).1 _ rfl
  cases hf
  rcases List.mem_cons.mp hmem with hmem | hmem
  · cases hmem
    exact absurd hdecode (by decide +kernel)
  · exact absurd (Prod.mk.inj (List.mem_singleton.mp hmem)).1 (by decide)

end Carried

end Steward.Compile
