import Steward.Proofs.Compile.Sections
import Steward.Proofs.Diff.Pruned

/-!
# Edits of a specification

Who edits one section of a manager's specification expects that nothing else is touched on the
service.  No section depends on another one on the way there: each kind of items is compiled from
its own section, pruned by itself (`_prune`) and compared by itself (`diff_ir`).  So the changes
from the configuration before an edit to the one after it are all of the kind that the edited
section declares, and there are none if its items are not compared at all (`edit_stays_in_section`).
Only the name of the resource, which leads the names of its items (`_managed_name`), is shared by
the sections.
-/

namespace Steward

/-! ## 1. Sections of a specification -/

namespace Spec.Manager

/-- The sections of a manager's specification. -/
inductive Part where
  | connection
  | qualityPreset
  | downloadClients
  | indexers
  | rootFolders
  | pathMappings
  | importLists
  | mediaManagement
  | authentication
  | tuning
  deriving DecidableEq, Repr

/-- The kind of the items that a section declares, if they are compared. -/
def Part.kind? : Part → Option Section
  | .qualityPreset => some .qualityProfile
  | .downloadClients => some .downloadClient
  | .indexers => some .indexer
  | .rootFolders => some .rootFolder
  | .pathMappings => some .pathMapping
  | .connection | .importLists | .mediaManagement | .authentication | .tuning => none

/-- The specification `s`, with this section as it is in `t`. -/
def edit (s : Manager) (p : Part) (t : Manager) : Manager :=
  match p with
  | .connection => { s with connection := t.connection }
  | .qualityPreset => { s with qualityPreset := t.qualityPreset }
  | .downloadClients => { s with downloadClients := t.downloadClients }
  | .indexers => { s with indexers := t.indexers }
  | .rootFolders => { s with rootFolders := t.rootFolders }
  | .pathMappings => { s with pathMappings := t.pathMappings }
  | .importLists => { s with importLists := t.importLists }
  | .mediaManagement => { s with mediaManagement := t.mediaManagement }
  | .authentication => { s with authentication := t.authentication }
  | .tuning => { s with tuning := t.tuning }

/-- The specifications declare the same items of a kind. -/
def SameItems (kind : Section) (s t : Manager) : Prop :=
  match kind with
  | .qualityProfile => s.qualityPreset = t.qualityPreset
  | .downloadClient => s.downloadClients = t.downloadClients
  | .indexer => s.indexers = t.indexers
  | .rootFolder => s.rootFolders = t.rootFolders
  | .pathMapping => s.pathMappings = t.pathMappings
  | _ => True

/-- An edit leaves the items of all kinds but one. -/
theorem sameItems_edit {p : Part} {kind : Section} (h : p.kind? ≠ some kind) (s t : Manager) :
    SameItems kind s (s.edit p t) := by
  cases kind with
  | qualityProfile | downloadClient | indexer | rootFolder | pathMapping =>
    cases p <;> first | rfl | exact absurd rfl h
  | _ => trivial

end Spec.Manager

open Spec.Manager (Part SameItems)

/-! ## 2. What is compiled from a section -/

namespace Compile

variable {pre : String} {m m' : Managed} {secrets : SecretMap} {spec spec' : Spec.Manager}
  {s s' : ServiceState}

/-- Of the resource, the items depend on its name only. -/
theorem itemName_congr (hname : m.name = m'.name) (pre : String) :
    itemName pre m = itemName pre m' := by
  funext name
  rw [itemName, itemName, hname]

theorem downloadClient_congr (hname : m.name = m'.name) (pre : String) (secrets : SecretMap) :
    downloadClient pre m secrets = downloadClient pre m' secrets := by
  funext c
  simp only [downloadClient, itemName_congr hname]

theorem indexer_congr (hname : m.name = m'.name) (pre : String) (secrets : SecretMap) :
    indexer pre m secrets = indexer pre m' secrets := by
  funext i
  simp only [indexer, itemName_congr hname]

/-- What is declared alike is compiled alike, kind by kind. -/
theorem items_manager_congr {kind : Section} (hname : m.name = m'.name)
    (hclients : m.declared.downloadClients = spec.downloadClients)
    (hclients' : m'.declared.downloadClients = spec'.downloadClients)
    (hs : manager pre m spec secrets = .ok s) (hs' : manager pre m' spec' secrets = .ok s')
    (hsame : SameItems kind spec spec') :
    Shape.manager.items s kind = Shape.manager.items s' kind := by
  rw [manager] at hs hs'
  obtain ⟨clients, hcompiled, hs⟩ := bind_eq_ok_iff.mp hs
  obtain ⟨clients', hcompiled', hs'⟩ := bind_eq_ok_iff.mp hs'
  cases hs
  cases hs'
  cases kind with
  | qualityProfile =>
    have hpreset : spec.qualityPreset = spec'.qualityPreset := hsame
    simp only [Shape.items, hpreset, hname]
  | downloadClient =>
    have hdeclared : spec.downloadClients = spec'.downloadClients := hsame
    rw [downloadClients, hclients, hdeclared, downloadClient_congr hname, ← hclients',
      ← downloadClients] at hcompiled
    cases hcompiled.symm.trans hcompiled'
    rfl
  | indexer =>
    have hdeclared : spec.indexers = spec'.indexers := hsame
    simp only [Shape.items, Diff.directIndexers, hdeclared, indexer_congr hname]
  | rootFolder =>
    have hdeclared : spec.rootFolders = spec'.rootFolders := hsame
    simp only [Shape.items, hdeclared]
  | pathMapping =>
    have hdeclared : spec.pathMappings = spec'.pathMappings := hsame
    simp only [Shape.items, hdeclared]
  | _ => rfl

end Compile

/-! ## 3. What is compared -/

namespace Diff

variable {caps : Capabilities} {ids : ItemIds}

/-- Pruning leaves what may be managed of a kind that is supported. -/
theorem managed_prune {kind : Section} (h : caps.supports kind = true) (s : ServiceState) :
    Shape.manager.managed caps (prune caps s).1 kind = Shape.manager.managed caps s kind := by
  cases kind with
  | downloadClient =>
    simp only [Shape.managed, Shape.items, ← map_supportedClients, downloadClients_prune h,
      supportedClients_idem]
  | indexer =>
    simp only [Shape.managed, Shape.items, ← map_supportedIndexers, directIndexers_prune h,
      supportedIndexers_idem]
  | _ => rfl

/-- Where the items of a kind are the same on both sides, nothing of the kind is changed. -/
theorem Exact.ne_of_mem {mode : Section → Mode} {seen want : Section → List Item} {cs : ChangeSet}
    (h : Exact caps ids mode seen want cs) {c : Change} (hc : c ∈ cs.all) :
    seen c.kind ≠ want c.kind := by
  intro hsame
  rw [ChangeSet.all, List.mem_append, List.mem_append] at hc
  rcases hc with (hc | hc) | hc
  · obtain ⟨-, item, hwant, hseen, -⟩ := (h.creates c).mp hc
    rw [← hsame, hseen] at hwant
    cases hwant
  · obtain ⟨-, -, old, item, hseen, hwant, hdiffers, -⟩ := (h.updates c).mp hc
    rw [hsame, hwant] at hseen
    cases hseen
    exact hdiffers (Item.Agree.refl _)
  · obtain ⟨-, -, old, hseen, hwant, -⟩ := (h.deletes c).mp hc
    rw [hsame, hwant] at hseen
    cases hseen

theorem isEmpty_of_forall_not_mem {cs : ChangeSet} (h : ∀ c, c ∉ cs.all) : cs.isEmpty = true := by
  have hall : cs.all = [] := List.eq_nil_iff_forall_not_mem.mpr h
  rw [ChangeSet.all, List.append_eq_nil_iff, List.append_eq_nil_iff] at hall
  rw [ChangeSet.isEmpty, hall.1.1, hall.1.2, hall.2]
  rfl

end Diff

/-! ## 4. From one configuration to the next -/

namespace Compile

variable {pre : String} {k : ManagerKind} {m m' : Managed} {spec spec' : Spec.Manager}
  {secrets : SecretMap} {caps : Capabilities} {before after : ServiceState}

theorem fits_of_compile (hm : m.declared = .manager k spec)
    (h : compile pre m secrets caps = .ok after) : Shape.manager.Fits after := by
  obtain ⟨s, hash, hs, rfl⟩ := exists_sections_of_compile h
  have hfits := fits_sections hs
  rw [hm] at hfits
  exact hfits

/-- What is declared alike is managed alike, where it is supported at all. -/
theorem managed_congr (hm : m.declared = .manager k spec) (hm' : m'.declared = .manager k spec')
    (hname : m.name = m'.name) (hbefore : compile pre m secrets caps = .ok before)
    (hafter : compile pre m' secrets caps = .ok after) {kind : Section}
    (hsame : SameItems kind spec spec') (hsupported : caps.supports kind = true) :
    Shape.manager.managed caps before kind = Shape.manager.managed caps after kind := by
  obtain ⟨s, hash, hs, rfl⟩ := exists_sections_of_compile hbefore
  obtain ⟨s', hash', hs', rfl⟩ := exists_sections_of_compile hafter
  rw [sections, hm] at hs
  rw [sections, hm'] at hs'
  have hitems := items_manager_congr hname (by rw [hm]; rfl) (by rw [hm']; rfl) hs hs' hsame
  calc Shape.manager.managed caps (prune caps s).1 kind
      = Shape.manager.managed caps s kind := Diff.managed_prune hsupported s
    _ = Shape.manager.managed caps s' kind := by rw [Shape.managed, Shape.managed, hitems]
    _ = Shape.manager.managed caps (prune caps s').1 kind :=
        (Diff.managed_prune hsupported s').symm

end Compile

open Diff

/-- **An edit stays in its section.**  Of two configurations that were compiled for the same service
from specifications that differ in one section, the changes from one to the other are all of the
kind of that section; there are none if the section is not compared. -/
theorem edit_stays_in_section {pre : String} {k : ManagerKind} {m m' : Managed}
    {spec spec' : Spec.Manager} {p : Part} {secrets : SecretMap} {caps : Capabilities}
    {before after : ServiceState} (ids : ItemIds) (hm : m.declared = .manager k spec)
    (hm' : m'.declared = .manager k spec') (hname : m.name = m'.name)
    (hedit : spec' = spec.edit p spec') (hbefore : compile pre m secrets caps = .ok before)
    (hafter : compile pre m' secrets caps = .ok after) :
    (∀ c ∈ (diff (some before) after caps ids).all, p.kind? = some c.kind) ∧
      (p.kind? = none → (diff (some before) after caps ids).isEmpty = true) := by
  have hfits : ∀ s ∈ some before, Shape.manager.Fits s := by
    rintro s ⟨⟩
    exact Compile.fits_of_compile hm hbefore
  have hexact := exact_diff hfits (Compile.fits_of_compile hm' hafter) caps ids
  have hkinds : ∀ c ∈ (diff (some before) after caps ids).all, p.kind? = some c.kind := by
    intro c hc
    by_contra hkind
    have hsame : SameItems c.kind spec spec' := by
      have h := Spec.Manager.sameItems_edit hkind spec spec'
      rwa [← hedit] at h
    exact hexact.ne_of_mem hc
      (Compile.managed_congr hm hm' hname hbefore hafter hsame (hexact.supports hc))
  refine ⟨hkinds, fun hnone => isEmpty_of_forall_not_mem fun c hc => ?_⟩
  have hkind := hkinds c hc
  rw [hnone] at hkind
  cases hkind

/-- One more indexer is declared before the other one: the download clients, two of one name, are
left alone. -/
theorem edit_stays_in_section_shows :
    let shows (indexers : List Json) : Resource :=
      { kind := "SonarrConfig", name := "shows"
        spec := [("connection", .object [("url", .string "http://shows")]),
          ("downloadClients", .array [
            .object [("name", .string "qb"), ("url", .string "qbittorrent://a")],
            .object [("name", .string "qb"), ("url", .string "qbittorrent://b")]]),
          ("indexers", .object [("direct", .array indexers)])] }
    let a : Json := .object [("name", .string "a"), ("url", .string "http://a")]
    let b : Json := .object [("name", .string "b"), ("url", .string "http://b")]
    let caps : Capabilities := { downloadClientTypes := ["QBittorrent"] }
    ∃ m m' spec spec' before after, Managed.ofResource (shows [a]) = .ok m ∧
      Managed.ofResource (shows [b, a]) = .ok m' ∧ m.declared = .manager .sonarr spec ∧
      m'.declared = .manager .sonarr spec' ∧ spec' = spec.edit .indexers spec' ∧
      spec ≠ spec' ∧ compile "arr-operator" m [] caps = .ok before ∧
      compile "arr-operator" m' [] caps = .ok after ∧ before.downloadClients.length = 2 ∧
      (diff (some before) after caps).isEmpty = false ∧
      ∀ c ∈ (diff (some before) after caps).all, c.kind = .indexer := by
  intro shows a b caps
  obtain ⟨m, m', spec, spec', before, after, hm, hm', hdeclared, hdeclared', hname, hedit, hne,
      hbefore, hafter, hlength, hchanged⟩ :
      ∃ m m' spec spec' before after, Managed.ofResource (shows [a]) = .ok m ∧
        Managed.ofResource (shows [b, a]) = .ok m' ∧ m.declared = .manager .sonarr spec ∧
        m'.declared = .manager .sonarr spec' ∧ m.name = m'.name ∧
        spec' = spec.edit .indexers spec' ∧ spec ≠ spec' ∧
        compile "arr-operator" m [] caps = .ok before ∧
        compile "arr-operator" m' [] caps = .ok after ∧ before.downloadClients.length = 2 ∧
        (diff (some before) after caps).isEmpty = false :=
    ⟨_, _, _, _, _, _, rfl, rfl, rfl, rfl, rfl, rfl, by decide +kernel, rfl, rfl, rfl, rfl⟩
  have hstays := edit_stays_in_section [] hdeclared hdeclared' hname hedit hbefore hafter
  refine ⟨m, m', spec, spec', before, after, hm, hm', hdeclared, hdeclared', hedit, hne, hbefore,
    hafter, hlength, hchanged, fun c hc => ?_⟩
  exact (Option.some.inj (hstays.1 c hc)).symm

end Steward
