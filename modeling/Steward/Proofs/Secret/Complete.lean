import Steward.Proofs.Secret.Place

/-!
# Resolving secrets is complete

In a world that replies from a vault, resolving the secrets of a resource (`resolve_for`) comes to
what the vault makes of the references of its specification.  There is a map if all of them resolve,
with a value at the place of every key that a reference is to and nothing else; and no map, but the
error of the first reference that does not resolve, if one does not (`resolution_complete`).
-/

namespace Steward.Secret

open Pass

variable {f : Vault} {ns : String}

/-! ## 1. From the pass to the references -/

/-- The references that are resolved together. -/
def Use.references : Use → List Reference
  | .connection ref =>
    [Origin.connection.reference ref.name (keyOr ref.key SecretMap.standardApiKey)]
  | .key ref default purpose => [⟨purpose, none, ref.name, keyOr ref.key default⟩]
  | .credentials ref purpose =>
    [⟨purpose, none, ref.name, keyOr ref.usernameKey SecretMap.standardUsername⟩,
      ⟨purpose, none, ref.name, keyOr ref.passwordKey SecretMap.standardPassword⟩]
  | .whole ref purpose => [⟨purpose, none, ref.name, none⟩]

/-- The pass resolves the references of a specification, and in their order. -/
theorem flatMap_uses (d : Declared) : (uses d).flatMap Use.references = references d := by
  simp only [uses, references, connectionUses, List.flatMap_append, List.flatMap_assoc,
    Origin.inOrder, List.flatMap_cons, List.flatMap_nil, List.append_nil,
    List.append_assoc, Origin.references, Origin.one, Origin.login, Origin.whole,
    List.map_eq_flatMap]
  rfl

/-! ## 2. The pass in a vault -/

theorem readAll_singleton (r : Reference) : readAll f ns [r] = r.read f ns := by
  rw [readAll, List.mapM_cons, List.mapM_nil]
  cases r.read f ns with
  | error e => rfl
  | ok part => exact congrArg Except.ok (List.append_nil part)

/-- Two values are read one after the other. -/
theorem map_append_map (x y : Except Failure String) (place place' : String) :
    (do return (← x.map fun v => [(place, v)]) ++ (← y.map fun v => [(place', v)])) =
      (do let u ← x; y.map fun v => [(place, u), (place', v)]) := by
  cases x with
  | error e => rfl
  | ok u => cases y <;> rfl

theorem yields_entries (u : Use) :
    Yields (From f) (Agrees f ns) (entries ns u) (readAll f ns u.references) := by
  cases u with
  | connection ref =>
    rw [Use.references, readAll_singleton]
    exact (yields_value _ _ _ _ _).bind_pure _
  | key ref default purpose =>
    rw [Use.references, readAll_singleton]
    exact (yields_value _ _ _ _ _).bind_pure _
  | credentials ref purpose =>
    rw [Use.references, ← List.singleton_append, readAll_append, readAll_singleton,
      readAll_singleton]
    dsimp only [Reference.read]
    rw [map_append_map]
    exact (yields_value _ _ _ _ _).bind fun u => (yields_value _ _ _ _ _).bind_pure _
  | whole ref purpose =>
    rw [Use.references, readAll_singleton]
    exact (yields_values _ _ _ _).bind_pure _

theorem yields_resolveUses (m : SecretMap) (us : List Use) :
    Yields (From f) (Agrees f ns) (resolveUses ns m us)
      ((readAll f ns (us.flatMap Use.references)).map (Table.setAll m)) := by
  induction us generalizing m with
  | nil => exact yields_pure m
  | cons u us ih =>
    rw [resolveUses, List.flatMap_cons, readAll_append]
    have hentries : Yields (From f) (Agrees f ns) _ _ := yields_entries u
    cases hes : readAll f ns u.references with
    | error e =>
      rw [hes] at hentries
      exact hentries.bind_error
    | ok es =>
      rw [hes] at hentries
      refine hentries.bind_ok ?_
      have hrest := ih (Table.setAll m es)
      cases hts : readAll f ns (us.flatMap Use.references) with
      | error e =>
        rw [hts] at hrest
        exact hrest
      | ok ts =>
        rw [hts] at hrest
        change Yields (From f) (Agrees f ns) _ (.ok (Table.setAll m (es ++ ts)))
        rw [Table.setAll_append]
        exact hrest

/-- Resolving the secrets of a resource comes to what the vault makes of its references. -/
theorem yields_resolve (m : Managed) :
    Yields (From f) (Agrees f m.ns) (resolve m)
      ((readAll f m.ns (references m.declared)).map Table.ofEntries) := by
  rw [← flatMap_uses]
  exact yields_resolveUses [] (uses m.declared)

section World

variable {σ : Type} {world : Program.World signature σ}

/-- Whatever else the world does, it replies to the reading of secrets from the vault. -/
def Behind (f : Vault) (world : Program.World signature σ) : Prop :=
  ∀ (ns name : String) (s : σ), (world (.getSecret ns name) s).1 = f ns name

theorem Behind.from (h : Behind f world) {s s' : σ} {xs : List Exchange}
    (hplays : Program.Plays world s xs s') : ∀ x ∈ xs, From f x := by
  induction hplays with
  | nil s => exact List.forall_mem_nil _
  | @cons s s' r rest _ ih =>
    refine List.forall_mem_cons.mpr ⟨?_, ih⟩
    intro ns name reply hx
    cases hx
    exact h ns name s

theorem Behind.run_resolve (h : Behind f world) (m : Managed) (s : σ) :
    ((resolve m).program.run world s).1 =
      (readAll f m.ns (references m.declared)).map Table.ofEntries := by
  obtain ⟨xs, hfollows, hplays⟩ := Program.exists_follows_run world (resolve m).program s
  obtain ⟨after, hfollows⟩ := follows_program.mp hfollows
  exact (yields_resolve m _ _ _ _ hfollows (h.from hplays) (agrees_nil f m.ns)).1

end World

/-! ## 3. All or nothing -/

/-- What references have to come to. -/
structure Complete (f : Vault) (ns : String) (rs : List Reference)
    (out : Except Failure SecretMap) : Prop where
  /-- There is a map if all references resolve. -/
  resolves : (∃ secrets, out = .ok secrets) ↔ ∀ r ∈ rs, r.Resolves f ns
  /-- It has the places of the keys that the references are to, each once. -/
  places : ∀ secrets, out = .ok secrets → ∀ place,
    (∃ value, Table.get? secrets place = some value) ↔ Occupied f ns rs place
  distinct : ∀ secrets, out = .ok secrets → (Table.keys secrets).Nodup
  /-- At every place it has the value of a key that goes there. -/
  values : ∀ secrets, out = .ok secrets → ∀ place value,
    Table.get? secrets place = some value → Placed f ns rs place value
  /-- Otherwise the error is that of the first reference that does not resolve. -/
  first : ∀ e, out = .error e → ∃ before r after, rs = before ++ r :: after ∧
    (∀ b ∈ before, b.Resolves f ns) ∧ r.Fails f ns e

/-- Nothing is at a place that no reference is to. -/
theorem Complete.get?_eq_none {rs : List Reference} {secrets : SecretMap}
    (h : Complete f ns rs (.ok secrets)) {place : String} (hfree : ¬ Occupied f ns rs place) :
    Table.get? secrets place = none :=
  Option.eq_none_iff_forall_ne_some.mpr fun value hget =>
    hfree ((h.places _ rfl _).mp ⟨value, hget⟩)

theorem complete_readAll (rs : List Reference) :
    Complete f ns rs ((readAll f ns rs).map Table.ofEntries) where
  resolves := by rw [exists_map_eq_ok_iff, exists_readAll_iff]
  places secrets hout place := by
    obtain ⟨es, hes, rfl⟩ := map_eq_ok_iff.mp hout
    rw [Table.exists_get?_ofEntries_iff]
    constructor
    · rintro ⟨value, hmem⟩
      obtain ⟨r, hr, part, hread, hpart⟩ := (mem_readAll hes).mp hmem
      obtain ⟨key, hcovers, hplace, -⟩ := Reference.holds_of_mem_read hread hpart
      exact ⟨r, hr, key, hcovers, hplace⟩
    · rintro ⟨r, hr, key, hcovers, rfl⟩
      obtain ⟨part, hread⟩ := Reference.exists_read_iff.mpr (exists_readAll_iff.mp ⟨es, hes⟩ r hr)
      obtain ⟨value, hpart⟩ := Reference.exists_mem_read hread hcovers
      exact ⟨value, (mem_readAll hes).mpr ⟨r, hr, part, hread, hpart⟩⟩
  distinct secrets hout := by
    obtain ⟨es, -, rfl⟩ := map_eq_ok_iff.mp hout
    exact Table.nodup_keys_setAll (show (Table.keys []).Nodup from List.nodup_nil) es
  values secrets hout place value hget := by
    obtain ⟨es, hes, rfl⟩ := map_eq_ok_iff.mp hout
    obtain ⟨r, hr, part, hread, hpart⟩ := (mem_readAll hes).mp (Table.mem_of_get?_ofEntries hget)
    obtain ⟨key, hkey⟩ := Reference.holds_of_mem_read hread hpart
    exact ⟨r, hr, key, hkey⟩
  first e hout := fails_of_readAll (map_eq_error_iff.mp hout)

section Resolution

variable {σ : Type} {world : Program.World signature σ} {m : Managed} {s : σ} {secrets : SecretMap}

/-- The secrets that a resource was resolved to are those of its references. -/
theorem Behind.complete (h : Behind f world)
    (hresolved : ((resolve m).program.run world s).1 = .ok secrets) :
    Complete f m.ns (references m.declared) (.ok secrets) := by
  rw [← hresolved, h.run_resolve]
  exact complete_readAll _

/-- **Resolution is complete, and all or nothing.**  Where the world replies to the reading of
secrets from a vault, a resource is resolved to a map if all of its references resolve.  The map has
the places of the keys that they are to, each with a value that the vault holds for it; if some
reference does not resolve, the error is that of the first, in the order of `Origin.inOrder`. -/
theorem resolution_complete (h : Behind f world) (m : Managed) (s : σ) :
    Complete f m.ns (references m.declared) ((resolve m).program.run world s).1 := by
  rw [h.run_resolve]
  exact complete_readAll _

/-- A world that has a vault, and of which nothing else is known. -/
noncomputable def keeping (f : Vault) : Program.World signature Unit
  | .getSecret ns name, s => (f ns name, s)
  | r, s => (Classical.choice (inferInstanceAs (Nonempty (signature.Reply r))), s)

theorem behind_keeping (f : Vault) : Behind f (keeping f) := fun _ _ _ => rfl

/-- A login and a list are resolved; the key of the connection would be missing. -/
theorem resolution_complete_shows :
    let spec (connection : Json.Members) : Json.Members :=
      [("connection", .object (("url", .string "http://shows") :: connection)),
        ("downloadClients", .array [.object [("name", .string "qb"), ("url", .string "http://qb"),
          ("credentialsSecretRef", .object [("name", .string "qb")])]]),
        ("importLists", .array [.object [("name", .string "watched"), ("type", .string "Trakt"),
          ("settingsSecretRef", .object [("name", .string "trakt")])]])]
    let shows (connection : Json.Members) : Resource :=
      { kind := "SonarrConfig", name := "shows", spec := spec connection }
    let f : Vault := fun _ name =>
      if name = "qb" then .ok (some [("username", encode "admin"), ("password", encode "secret")])
      else if name = "trakt" then .ok (some [("token", encode "t")])
      else .ok none
    ∃ m m' out out', Managed.ofResource (shows []) = .ok m ∧
      Managed.ofResource (shows
        [("apiKeySecretRef", .object [("name", .string "shows-key")])]) = .ok m' ∧
      Behind f (keeping f) ∧
      ((resolve m).program.run (keeping f) ()).1 = out ∧
      out = .ok [("qb/username", "admin"), ("qb/password", "secret"), ("trakt/token", "t")] ∧
      Complete f m.ns (references m.declared) out ∧
      ((resolve m').program.run (keeping f) ()).1 = out' ∧
      out' = .error (.secret (.notFound "default" "shows-key" "failed to resolve API key secret")) ∧
      Complete f m'.ns (references m'.declared) out' := by
  intro spec shows f
  exact ⟨_, _, _, _, rfl, rfl, behind_keeping f, rfl, by decide +kernel,
    resolution_complete (behind_keeping f) _ (), rfl, by decide +kernel,
    resolution_complete (behind_keeping f) _ ()⟩

end Resolution

end Steward.Secret
