import Steward.Proofs.Aggregator.Client
import Steward.Proofs.Pass.Kept

/-!
# Secrets that do not change

While secrets are replied from a vault that does not change, it makes no difference which of them
were read before: what is kept of them agrees with the vault (`Agrees`), and so a value, the key of
a registration and a client come to what the vault says.  The key of a registration depends only on
the secrets that are tried for it (`tried`).
-/

namespace Steward.Secret

open Pass

/-- What is replied to the reading of each secret. -/
abbrev Vault := String → String → Except Failure (Option SecretData)

/-- The exchange reads a secret only from the vault. -/
def From (f : Vault) (x : Exchange) : Prop :=
  ∀ ns name reply, x = ⟨.getSecret ns name, reply⟩ → reply = f ns name

/-- The secrets of the namespace that were read are those of the vault. -/
def Agrees (f : Vault) (ns : String) (cache : Cache) : Prop :=
  ∀ name data, Table.get? cache (cacheKey ns name) = some data → f ns name = .ok (some data)

variable {f g : Vault} {ns name key purpose : String}

theorem agrees_nil (f : Vault) (ns : String) : Agrees f ns [] := fun _ _ h => nomatch h

theorem cacheKey_inj {other : String} (h : cacheKey ns name = cacheKey ns other) : name = other := by
  have hlist := congrArg String.toList h
  rw [cacheKey, cacheKey, String.toList_append, String.toList_append, String.toList_append,
    String.toList_append, List.append_cancel_left_eq] at hlist
  exact String.toList_injective hlist

theorem Agrees.set {cache : Cache} {data : SecretData} (h : Agrees f ns cache)
    (hdata : f ns name = .ok (some data)) :
    Agrees f ns (Table.set cache (cacheKey ns name) data) := by
  intro other d hget
  rw [Table.get?_set] at hget
  split at hget
  · rename_i hsame
    cases hget
    rwa [cacheKey_inj hsame]
  · exact h other d hget

/-! ## 1. Values -/

/-- The stored values of a secret. -/
def dataIn (f : Vault) (ns name purpose : String) : Except Failure SecretData :=
  match f ns name with
  | .ok (some data) => .ok data
  | .ok none => .error (.secret (.notFound ns name purpose))
  | .error e => .error e

/-- The value of one key. -/
def valueIn (f : Vault) (ns name key purpose : String) : Except Failure String :=
  match dataIn f ns name purpose with
  | .ok data =>
    match Table.get? data key with
    | some stored => (decode stored).mapError .secret
    | none => .error (.secret (.noKey ns name key purpose))
  | .error e => .error e

theorem yields_fetch (f : Vault) (ns name purpose : String) :
    Yields (From f) (Agrees f ns) (fetch ns name purpose) (dataIn f ns name purpose) := by
  intro cache after xs out h hxs hcache
  rw [fetch, follows_cache_bind] at h
  split at h
  · rename_i data hget
    obtain ⟨-, rfl, rfl⟩ := follows_pure.mp h
    rw [dataIn, hcache name data hget]
    exact ⟨rfl, hcache⟩
  · rcases follows_bind.mp h with ⟨ys, zs, found, mid, rfl, hget, hfound⟩ | ⟨e, rfl, hget⟩
    · obtain ⟨reply, rfl, hreply, rfl⟩ := follows_ask_settle.mp hget
      rw [hxs _ List.mem_cons_self ns name reply rfl] at hreply
      rw [dataIn, ← hreply]
      cases found with
      | none =>
        obtain ⟨-, rfl, rfl⟩ := follows_throw.mp hfound
        exact ⟨rfl, hcache⟩
      | some data =>
        dsimp only at hfound
        rw [follows_remember_bind] at hfound
        obtain ⟨-, rfl, rfl⟩ := follows_pure.mp hfound
        exact ⟨rfl, hcache.set hreply.symm⟩
    · obtain ⟨reply, rfl, hreply, rfl⟩ := follows_ask_settle.mp hget
      rw [hxs _ List.mem_cons_self ns name reply rfl] at hreply
      rw [dataIn, ← hreply]
      exact ⟨rfl, hcache⟩

theorem yields_value (f : Vault) (ns name key purpose : String) :
    Yields (From f) (Agrees f ns) (value ns name key purpose) (valueIn f ns name key purpose) := by
  have hfetch := yields_fetch f ns name purpose
  rw [valueIn]
  cases hdata : dataIn f ns name purpose with
  | error e =>
    rw [hdata] at hfetch
    exact hfetch.bind_error
  | ok data =>
    rw [hdata] at hfetch
    refine hfetch.bind_ok ?_
    dsimp only
    cases Table.get? data key with
    | none => exact yields_throw _
    | some stored => exact yields_settle _

/-- The value of an entry of a secret, under its key. -/
def decoded (entry : String × String) : Except Failure (String × String) :=
  ((decode entry.2).mapError .secret).map (entry.1, ·)

/-- The values of all keys. -/
def valuesIn (f : Vault) (ns name purpose : String) : Except Failure (Table String) := do
  (← dataIn f ns name purpose).mapM decoded

theorem yields_values (f : Vault) (ns name purpose : String) :
    Yields (From f) (Agrees f ns) (values ns name purpose) (valuesIn f ns name purpose) :=
  (yields_fetch f ns name purpose).bind fun data =>
    yields_mapM (fun entry => (yields_settle _).bind_pure (entry.1, ·)) data

/-- A value depends only on its own secret. -/
theorem valueIn_congr (h : f ns name = g ns name) :
    valueIn f ns name key purpose = valueIn g ns name key purpose := by
  rw [valueIn, valueIn, dataIn, dataIn, h]

/-! ## 2. The key of a registration -/

/-- The first candidate whose value is not empty. -/
def firstIn (f : Vault) (m : Managed) (failures : List String) :
    List (String × String) → Except Failure String
  | [] => .error (.secret (.noRegistrationKey m.service m.name failures))
  | (name, key) :: rest =>
    match valueIn f m.ns name key "" with
    | .ok v => if v.isEmpty then firstIn f m failures rest else .ok v
    | .error (.secret e) => firstIn f m (failures ++ [e.message]) rest
    | .error e => .error e

/-- The secrets that are read to find it. -/
def triedOf (f : Vault) (m : Managed) : List (String × String) → List String
  | [] => []
  | (name, key) :: rest =>
    name :: match valueIn f m.ns name key "" with
      | .ok v => if v.isEmpty then triedOf f m rest else []
      | .error (.secret _) => triedOf f m rest
      | .error _ => []

/-- The key that a service is registered with. -/
def keyIn (f : Vault) (m : Managed) : Except Failure String :=
  firstIn f m [] (registrationCandidates m)

/-- The secrets that the lookup of this key tries. -/
def tried (f : Vault) (m : Managed) : List String := triedOf f m (registrationCandidates m)

theorem yields_firstUsable (f : Vault) (m : Managed) (failures : List String)
    (candidates : List (String × String)) :
    Yields (From f) (Agrees f m.ns) (firstUsable m failures candidates)
      (firstIn f m failures candidates) := by
  induction candidates generalizing failures with
  | nil => exact yields_throw _
  | cons candidate rest ih =>
    obtain ⟨name, key⟩ := candidate
    rw [firstIn]
    refine (yields_value f m.ns name key "").attempt_bind ?_
    cases valueIn f m.ns name key "" with
    | ok v =>
      dsimp only
      split
      · exact ih failures
      · exact yields_pure v
    | error e =>
      cases e with
      | secret s => exact ih _
      | _ => exact yields_throw _

/-- **The key of a registration.**  It is what the vault says, whatever was read before. -/
theorem yields_registrationKey (f : Vault) (m : Managed) :
    Yields (From f) (Agrees f m.ns) (registrationKey m) (keyIn f m) :=
  yields_firstUsable f m [] (registrationCandidates m)

theorem firstIn_congr {m : Managed} {failures : List String} {candidates : List (String × String)}
    (h : ∀ name ∈ triedOf f m candidates, f m.ns name = g m.ns name) :
    firstIn f m failures candidates = firstIn g m failures candidates := by
  induction candidates generalizing failures with
  | nil => rfl
  | cons candidate rest ih =>
    obtain ⟨name, key⟩ := candidate
    rw [triedOf, List.forall_mem_cons] at h
    obtain ⟨hname, hrest⟩ := h
    rw [firstIn, firstIn, ← valueIn_congr hname]
    cases hvalue : valueIn f m.ns name key "" with
    | ok v =>
      rw [hvalue] at hrest
      dsimp only at hrest ⊢
      split at hrest
      · rw [if_pos ‹_›, if_pos ‹_›]
        exact ih hrest
      · rw [if_neg ‹_›, if_neg ‹_›]
    | error e =>
      rw [hvalue] at hrest
      cases e with
      | secret s => exact ih hrest
      | _ => rfl

/-- The key depends only on the secrets that are tried for it. -/
theorem keyIn_congr {m : Managed} (h : ∀ name ∈ tried f m, f m.ns name = g m.ns name) :
    keyIn f m = keyIn g m :=
  firstIn_congr h

/-! ## 3. The key of a connection -/

/-- The key of a connection as a map. -/
def connectionIn (f : Vault) (ns : String) (c : Spec.Connection) : Except Failure SecretMap :=
  match c.apiKeyRef with
  | none => .ok []
  | some ref =>
    (valueIn f ns ref.name (keyOr ref.key SecretMap.standardApiKey)
      "failed to resolve API key secret").map fun v => Table.setAll [] [(SecretMap.connectionKey, v)]

theorem yields_resolveConnection (f : Vault) (ns : String) (c : Spec.Connection) :
    Yields (From f) (Agrees f ns) (resolveConnection ns c) (connectionIn f ns c) := by
  rw [resolveConnection, connectionUses, connectionIn]
  cases c.apiKeyRef with
  | none => exact yields_pure _
  | some ref =>
    have hvalue := yields_value f ns ref.name (keyOr ref.key SecretMap.standardApiKey)
      "failed to resolve API key secret"
    change Yields (From f) (Agrees f ns) (resolveUses ns [] [.connection ref]) _
    rw [resolveUses]
    dsimp only
    generalize valueIn f ns ref.name (keyOr ref.key SecretMap.standardApiKey)
      "failed to resolve API key secret" = v at hvalue ⊢
    cases v with
    | error e => exact hvalue.bind_error.bind_error
    | ok v => exact Yields.bind_ok (hvalue.bind_ok (yields_pure _)) (yields_pure _)

theorem connectionIn_congr {c : Spec.Connection}
    (h : ∀ ref ∈ c.apiKeyRef, f ns ref.name = g ns ref.name) :
    connectionIn f ns c = connectionIn g ns c := by
  rw [connectionIn, connectionIn]
  cases href : c.apiKeyRef with
  | none => rfl
  | some ref =>
    dsimp only
    rw [valueIn_congr (h ref href)]

end Steward.Secret

/-! ## 4. Clients -/

namespace Steward.AggregatorClient

open Pass Secret

variable {f g : Vault}

/-- The client for the service of a resource. -/
def clientIn (f : Vault) (m : Managed) (timeout : Int) : Except Failure AggregatorClient := do
  let secrets ← connectionIn f m.ns m.connection
  let apiKey := secrets.value SecretMap.connectionKey
  if apiKey.isEmpty then throw (.registration (.noApiKey m.ns m.name))
  let own : Int := (m.connection.timeout.getD 0 : Nat)
  return new m.connection.url apiKey (if own = 0 then timeout else own)
    m.connection.insecureSkipVerify

theorem yields_forManaged (f : Vault) (m : Managed) (timeout : Int) :
    Yields (From f) (Agrees f m.ns) (forManaged m timeout) (clientIn f m timeout) := by
  have hconnection := yields_resolveConnection f m.ns m.connection
  rw [clientIn]
  cases hsecrets : connectionIn f m.ns m.connection with
  | error e =>
    rw [hsecrets] at hconnection
    exact hconnection.bind_error
  | ok secrets =>
    rw [hsecrets] at hconnection
    refine hconnection.bind_ok ?_
    dsimp only [bind, Except.bind]
    split
    · exact yields_throw _
    · exact yields_pure _

theorem clientIn_congr {m : Managed} {timeout : Int}
    (h : ∀ ref ∈ m.connection.apiKeyRef, f m.ns ref.name = g m.ns ref.name) :
    clientIn f m timeout = clientIn g m timeout := by
  rw [clientIn, clientIn, connectionIn_congr h]

end Steward.AggregatorClient
