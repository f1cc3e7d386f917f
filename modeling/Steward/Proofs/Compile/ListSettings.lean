import Steward.Proofs.Compile.Sections
import Steward.Proofs.Secret.Complete

/-!
# Settings of import lists

The settings of a list are its own, overlaid by the values of its secret.  The compiler
(`_compile_import_lists`) finds these values by the name of the secret, as what stands in the map of
resolved secrets behind this name and a slash (`get?_listSettings`).  They are the secret's own
under every key at which no other reference meets it (`list_settings_overlaid`).  A secret whose
name goes on where another one ends, as `trakt/qb` does behind `trakt`, is found as well, and its
values get into the settings.
-/

namespace Steward.Compile

open Secret

variable {pre : String} {f : Vault} {m : Managed} {secrets : SecretMap} {caps : Capabilities}
  {desired : ServiceState}

/-! ## 1. What stands behind a name -/

/-- What an entry of the map is for the lists of a secret. -/
def settingOf (secret : String) (entry : String × String) : Option (String × Json) :=
  let lead := (secret ++ "/").toList
  if lead.isPrefixOf entry.1.toList then
    some (String.ofList (entry.1.toList.drop lead.length), Json.string entry.2)
  else none

/-- A place is a lead and a key. -/
theorem toList_keyOf_lead (secret key : String) :
    (SecretMap.keyOf secret key).toList = (secret ++ "/").toList ++ key.toList :=
  String.toList_append

theorem settingOf_keyOf (secret key value : String) :
    settingOf secret (SecretMap.keyOf secret key, value) = some (key, Json.string value) := by
  have hprefix : (secret ++ "/").toList.isPrefixOf (SecretMap.keyOf secret key).toList = true := by
    rw [toList_keyOf_lead]
    exact List.isPrefixOf_iff_prefix.mpr (List.prefix_append _ _)
  rw [settingOf, if_pos hprefix, toList_keyOf_lead, List.drop_left, String.ofList_toList]

theorem settingOf_eq_none {secret place : String} (h : ∀ key, place ≠ SecretMap.keyOf secret key)
    (value : String) : settingOf secret (place, value) = none := by
  refine if_neg fun hprefix => ?_
  obtain ⟨rest, hrest⟩ := List.isPrefixOf_iff_prefix.mp hprefix
  refine h (String.ofList rest) (String.toList_injective ?_)
  rw [toList_keyOf_lead, String.toList_ofList, ← hrest]

/-- Entries at the place of a key, and no others, are about this key. -/
theorem filter_settingOf (secret key : String) (e : String × String) :
    (settingOf secret e).filter (fun s => s.1 = key) =
      if e.1 = SecretMap.keyOf secret key then some (key, Json.string e.2) else none := by
  obtain ⟨place, value⟩ := e
  by_cases hplace : ∃ k, place = SecretMap.keyOf secret k
  · obtain ⟨k, rfl⟩ := hplace
    rw [settingOf_keyOf, Option.filter_some]
    by_cases hk : k = key
    · subst hk
      simp
    · simp [hk, SecretMap.keyOf_right_inj]
  · have hne : ∀ k, place ≠ SecretMap.keyOf secret k := not_exists.mp hplace
    rw [settingOf_eq_none hne, if_neg (hne key), Option.filter_none]

/-- **A setting is what stands behind the name of the secret**, or the list's own. -/
theorem get?_listSettings (hdistinct : (Table.keys secrets).Nodup) {l : Spec.ImportList}
    {r : Spec.KeyRef} (href : l.settingsRef = some r) (key : String) :
    Table.get? (listSettings secrets l) key =
      ((Table.get? secrets (SecretMap.keyOf r.name key)).map Json.string).or
        (Table.get? l.settings key) := by
  have hset : listSettings secrets l =
      Table.setAll l.settings (secrets.filterMap (settingOf r.name)) := by
    rw [listSettings, href]
    rfl
  rw [hset, Table.get?_setAll, lastNamed_filterMap (filter_settingOf r.name key), Option.map_map,
    ← Table.map_lastNamed_fst hdistinct, Option.map_map]
  rfl

/-! ## 2. Overlaid settings -/

/-- The settings of a list are its own, overlaid by the values of its secret. -/
structure Overlaid (f : Vault) (m : Managed) (l : Spec.ImportList) (settings : Json.Members) :
    Prop where
  own : l.settingsRef = none → settings = l.settings
  distinct : (Table.keys l.settings).Nodup → (Table.keys settings).Nodup
  /-- Of the keys at which no other reference meets the secret, those that it has give way to its
  values, and the others stay. -/
  overlaid : ∀ r, l.settingsRef = some r → ∃ data, f m.ns r.name = .ok (some data) ∧
    ∀ key, Alone f m.ns (references m.declared) r.name key →
      (key ∈ Table.keys data → ∃ value, Holds f m.ns r.name key value ∧
        Table.get? settings key = some (.string value)) ∧
      (key ∉ Table.keys data → Table.get? settings key = Table.get? l.settings key)
  /-- Of all keys, those that something was resolved to give way to what it is. -/
  occupied : ∀ r, l.settingsRef = some r → ∀ key,
    Occupied f m.ns (references m.declared) (SecretMap.keyOf r.name key) →
      ∃ value, Placed f m.ns (references m.declared) (SecretMap.keyOf r.name key) value ∧
        Table.get? settings key = some (.string value)
  free : ∀ r, l.settingsRef = some r → ∀ key,
    ¬ Occupied f m.ns (references m.declared) (SecretMap.keyOf r.name key) →
      Table.get? settings key = Table.get? l.settings key

theorem nodup_keys_listSettings {l : Spec.ImportList} (h : (Table.keys l.settings).Nodup) :
    (Table.keys (listSettings secrets l)).Nodup := by
  rw [listSettings]
  split
  · exact Table.nodup_keys_setAll h _
  · exact h

section Settings

variable {l : Spec.ImportList} {r : Spec.KeyRef} {key : String}

theorem setting_of_occupied (h : Complete f m.ns (references m.declared) (.ok secrets))
    (href : l.settingsRef = some r)
    (hoccupied : Occupied f m.ns (references m.declared) (SecretMap.keyOf r.name key)) :
    ∃ value, Placed f m.ns (references m.declared) (SecretMap.keyOf r.name key) value ∧
      Table.get? (listSettings secrets l) key = some (.string value) := by
  obtain ⟨value, hget⟩ := (h.places _ rfl _).mpr hoccupied
  refine ⟨value, h.values _ rfl _ _ hget, ?_⟩
  rw [get?_listSettings (h.distinct _ rfl) href, hget]
  rfl

theorem setting_of_free (h : Complete f m.ns (references m.declared) (.ok secrets))
    (href : l.settingsRef = some r)
    (hfree : ¬ Occupied f m.ns (references m.declared) (SecretMap.keyOf r.name key)) :
    Table.get? (listSettings secrets l) key = Table.get? l.settings key := by
  rw [get?_listSettings (h.distinct _ rfl) href, h.get?_eq_none hfree]
  rfl

/-- A key that the secret lacks is free, if no other reference meets it there. -/
theorem free_of_alone (h : Complete f m.ns (references m.declared) (.ok secrets))
    {data : SecretData} (hf : f m.ns r.name = .ok (some data))
    (halone : Alone f m.ns (references m.declared) r.name key) (hkey : key ∉ Table.keys data) :
    ¬ Occupied f m.ns (references m.declared) (SecretMap.keyOf r.name key) := by
  intro hoccupied
  obtain ⟨value, hget⟩ := (h.places _ rfl _).mpr hoccupied
  obtain ⟨data', stored, hf', hmem, -⟩ := halone.holds (h.values _ rfl _ _ hget)
  rw [hf] at hf'
  cases hf'
  exact hkey (List.mem_map_of_mem hmem)

end Settings

theorem overlaid_listSettings (h : Complete f m.ns (references m.declared) (.ok secrets))
    {l : Spec.ImportList} (hl : l ∈ m.declared.importLists) :
    Overlaid f m l (listSettings secrets l) where
  own hnone := by rw [listSettings, hnone]
  distinct := nodup_keys_listSettings
  overlaid r href := by
    have hmem : Origin.importLists.reference r.name none ∈ references m.declared := by
      refine mem_references .importLists (List.mem_flatMap.mpr ⟨l, hl, ?_⟩)
      rw [href]
      exact List.mem_singleton_self _
    obtain ⟨data, hf, -⟩ := h.resolves.mp ⟨secrets, rfl⟩ _ hmem
    refine ⟨data, hf, fun key halone => ⟨fun hkey => ?_, fun hkey => ?_⟩⟩
    · obtain ⟨value, hplaced, hget⟩ :=
        setting_of_occupied h href ⟨_, hmem, key, ⟨data, hf, hkey⟩, rfl⟩
      exact ⟨value, halone.holds hplaced, hget⟩
    · exact setting_of_free h href (free_of_alone h hf halone hkey)
  occupied _ href _ := setting_of_occupied h href
  free _ href _ := setting_of_free h href

section Lists

variable {σ : Type} {world : Program.World Pass.signature σ} {s : σ}

/-- **Settings come from the list and from its secret.**  Where the secrets of a resource were
resolved from a vault, and its configuration was compiled for a service that can do everything, each
list has its own settings, overlaid by the values of its secret, up to keys at which another
reference meets this secret. -/
theorem list_settings_overlaid (hworld : Behind f world) (hfull : caps.Full)
    (hresolved : ((resolve m).program.run world s).1 = .ok secrets)
    (hcompile : compile pre m secrets caps = .ok desired) :
    List.Forall₂ (fun l item => Overlaid f m l item.settings)
      m.declared.importLists desired.importLists := by
  rw [(compiled_of_compile hfull hcompile).importLists, List.forall₂_map_right_iff,
    List.forall₂_same]
  exact fun l hl => overlaid_listSettings (hworld.complete hresolved) hl

/-- The token of the secret overlays the list's own, and its limit stays. -/
theorem list_settings_overlaid_shows :
    let shows : Resource :=
      { kind := "SonarrConfig", name := "shows"
        spec := [("connection", .object [("url", .string "http://shows")]),
          ("importLists", .array [.object [("name", .string "watched"), ("type", .string "Trakt"),
            ("settings", .object [("limit", .int 10), ("token", .string "none")]),
            ("settingsSecretRef", .object [("name", .string "trakt")])]])] }
    let f : Vault := fun _ name =>
      if name = "trakt" then .ok (some [("token", encode "t")]) else .ok none
    ∃ m secrets desired l item, Managed.ofResource shows = .ok m ∧ Behind f (keeping f) ∧
      ({} : Capabilities).Full ∧ ((resolve m).program.run (keeping f) ()).1 = .ok secrets ∧
      compile "arr-operator" m secrets {} = .ok desired ∧
      m.declared.importLists = [l] ∧ desired.importLists = [item] ∧
      Overlaid f m l item.settings ∧ (∀ key, Alone f m.ns (references m.declared) "trakt" key) ∧
      item.settings = [("limit", .int 10), ("token", .string "t")] := by
  intro shows f
  obtain ⟨m, secrets, desired, l, item, hm, hresolved, hcompile, hl, hitem, hplain, hsettings⟩ :
      ∃ m secrets desired l item, Managed.ofResource shows = .ok m ∧
        ((resolve m).program.run (keeping f) ()).1 = .ok secrets ∧
        compile "arr-operator" m secrets {} = .ok desired ∧
        m.declared.importLists = [l] ∧ desired.importLists = [item] ∧
        (∀ r ∈ references m.declared, '/' ∉ r.secret.toList) ∧
        item.settings = [("limit", .int 10), ("token", .string "t")] :=
    ⟨_, _, _, _, _, rfl, rfl, rfl, rfl, rfl, by decide +kernel, by decide +kernel⟩
  have hfull : ({} : Capabilities).Full := ⟨by decide, rfl, rfl⟩
  have hitems := list_settings_overlaid (behind_keeping f) hfull hresolved hcompile
  rw [hl, hitem, List.forall₂_cons] at hitems
  exact ⟨m, secrets, desired, l, item, hm, behind_keeping f, hfull, hresolved, hcompile, hl, hitem,
    hitems.1, alone_of_plain hplain (by decide), hsettings⟩

/-- The login of a client gets into the settings of a list, whose secret is called `trakt`, because
the secret of the client is called `trakt/qb`. -/
theorem not_overlaid_shows :
    ¬ ∀ (σ : Type) (world : Program.World Pass.signature σ) (s : σ) (f : Vault) (pre : String)
        (r : Resource) (m : Managed) (secrets : SecretMap) (caps : Capabilities)
        (desired : ServiceState),
      Managed.ofResource r = .ok m → Behind f world → caps.Full →
      ((resolve m).program.run world s).1 = .ok secrets →
      compile pre m secrets caps = .ok desired →
      List.Forall₂ (fun l item => ∀ r, l.settingsRef = some r →
          ∀ data, f m.ns r.name = .ok (some data) → ∀ key, key ∉ Table.keys data →
            Table.get? item.settings key = Table.get? l.settings key)
        m.declared.importLists desired.importLists := by
  intro h
  let shows : Resource :=
    { kind := "SonarrConfig", name := "shows"
      spec := [("connection", .object [("url", .string "http://shows")]),
        ("downloadClients", .array [.object [("name", .string "qb"),
          ("url", .string "qbittorrent://qb:8080"),
          ("credentialsSecretRef", .object [("name", .string "trakt/qb")])]]),
        ("importLists", .array [.object [("name", .string "watched"), ("type", .string "Trakt"),
          ("settings", .object [("limit", .int 10)]),
          ("settingsSecretRef", .object [("name", .string "trakt")])]])] }
  let f : Vault := fun _ name =>
    if name = "trakt" then .ok (some [("token", encode "t")])
    else if name = "trakt/qb" then
      .ok (some [("username", encode "admin"), ("password", encode "secret")])
    else .ok none
  have hitems := h Unit (keeping f) () f "arr-operator" shows _ _ {} _ rfl (behind_keeping f)
    ⟨by decide, rfl, rfl⟩ rfl rfl
  have hpassword := (List.forall₂_cons.mp hitems).1 _ rfl _ rfl "qb/password" (by decide)
  exact absurd hpassword (by decide +kernel)

end Lists

end Steward.Compile
