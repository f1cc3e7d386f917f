import Steward.Proofs.Compile.Sections
import Steward.Proofs.Diff.Pruned

/-!
# What a service is not sent

Where a service lacks a capability, it is not sent all that was declared for it, and what it is not
sent should be found among the unrealized features.  Pruning (`_prune`) sees to this for the
download clients and the indexers of an acquisition manager: every one that is withheld is reported,
by its section or by its implementation (`withheld_accounted`).  There are two gaps, both
`Overlooked`:

* Quality profiles, root folders and path mappings are passed over by the comparison (`diff_ir`)
  where they are not supported, and pruning does not look at them.
* In the configuration of an aggregator pruning looks at nothing, so nothing is ever reported there,
  not even a download client that it would report of a manager.
-/

namespace Steward

open Diff

/-! ## 1. What is withheld -/

/-- A service that can do everything may have all items. -/
theorem Capabilities.Full.admits {caps : Capabilities} (h : caps.Full) (item : Item) :
    caps.admits item = true := by
  cases item <;> simp [Capabilities.admits, h.downloadClientTypes, h.indexerTypes]

/-- A service that was never configured is only sent what it is to create. -/
theorem Diff.Exact.creates_of_new {caps : Capabilities} {ids : ItemIds} {mode : Section → Mode}
    {want : Section → List Item} {cs : ChangeSet} (h : Exact caps ids mode (fun _ => []) want cs)
    {c : Change} (hc : c ∈ cs.all) : Creates [] (want c.kind) c := by
  rw [ChangeSet.all, List.mem_append, List.mem_append] at hc
  rcases hc with (hc | hc) | hc
  · exact ((h.creates c).mp hc).2
  · obtain ⟨-, -, old, item, hseen, -⟩ := (h.updates c).mp hc
    cases hseen
  · obtain ⟨-, -, old, hseen, -⟩ := (h.deletes c).mp hc
    cases hseen

/-- The service lacks the kind of the change, or the implementation of its item. -/
def Lacks (caps : Capabilities) (c : Change) (item : Item) : Prop :=
  c.payload = some item ∧ (caps.supports c.kind = false ∨ caps.admits item = false)

/-- What one service is sent and another one is not, the other one lacks. -/
theorem exists_lacks_of_withheld {shape : Shape} {s : ServiceState} {full caps : Capabilities}
    (hfits : shape.Fits s) (hfull : full.Full) {c : Change} (hc : c ∈ (diff none s full).all)
    (hwithheld : c ∉ (diff none s caps).all) :
    ∃ item ∈ shape.items s c.kind, Lacks caps c item := by
  have hnone : ∀ s ∈ (none : Option ServiceState), shape.Fits s := fun _ h => nomatch h
  have hwhole := exact_diff hnone hfits full []
  have hpart := exact_diff hnone hfits caps []
  obtain ⟨item, hlast, -, hid, hpayload⟩ := hwhole.creates_of_new hc
  have hmanaged : shape.managed full s c.kind = shape.items s c.kind :=
    List.filter_eq_self.mpr fun item _ => hfull.admits item
  rw [hmanaged] at hlast
  refine ⟨item, (lastNamed_eq_some hlast).1, hpayload, ?_⟩
  rw [← Bool.not_eq_true, ← Bool.not_eq_true, ← not_and_or]
  rintro ⟨hsupported, hadmitted⟩
  refine hwithheld (List.mem_append_left _ (List.mem_append_left _ ?_))
  exact (hpart.creates c).mpr
    ⟨hsupported, item, lastNamed_filter_of_pos hlast hadmitted, rfl, hid, hpayload⟩

/-! ## 2. What is reported -/

namespace Prune

/-- What pruning reports of an item: that the section is not supported, or else that the
implementation is not.  Items of other kinds are not reported. -/
def complaint? (caps : Capabilities) : Item → Option State.Unrealized
  | .downloadClient c => some <| dropped <|
      if caps.supports .downloadClient then "downloadclient" ++ ":" ++ c.implementation
      else "downloadclients"
  | .indexer i => some <| dropped <|
      if caps.supports .indexer then "indexer" ++ ":" ++ i.implementation else "indexers"
  | _ => none

/-- Each item that is dropped is reported. -/
theorem mem_report {α : Type} {implementation : α → String} {all single : String}
    {supported : Bool} {types : List String} {is : List α} {i : α} (hi : i ∈ is)
    (hlacks : supported = false ∨ (types.isEmpty || types.contains (implementation i)) = false) :
    dropped (if supported then single ++ ":" ++ implementation i else all) ∈
      (items implementation all single supported types is).2 := by
  have hsome : is.isEmpty = false := List.isEmpty_eq_false_iff.mpr (List.ne_nil_of_mem hi)
  rw [items, hsome, if_neg Bool.false_ne_true]
  cases supported with
  | false => exact List.mem_singleton.mpr rfl
  | true =>
    have htypes := hlacks.resolve_left Bool.noConfusion
    rw [Bool.or_eq_false_iff] at htypes
    rw [Bool.not_true, if_neg Bool.false_ne_true, htypes.1, if_neg Bool.false_ne_true, if_pos rfl]
    have hdropped : i ∈ is.filter fun i => !types.contains (implementation i) :=
      List.mem_filter.mpr ⟨hi, by rw [htypes.2]; rfl⟩
    exact List.mem_map_of_mem hdropped

/-- Of a manager's configuration all items are reported that pruning drops. -/
theorem mem_report_prune {caps : Capabilities} {s : ServiceState} {kind : Section} {item : Item}
    {u : State.Unrealized} (hitem : item ∈ Shape.manager.items s kind)
    (hlacks : caps.supports kind = false ∨ caps.admits item = false)
    (hu : complaint? caps item = some u) : u ∈ (prune caps s).2 := by
  simp only [prune, List.mem_append, or_assoc]
  cases kind with
  | downloadClient =>
    obtain ⟨c, hc, rfl⟩ := List.mem_map.mp hitem
    cases hu
    exact .inl (mem_report hc hlacks)
  | indexer =>
    obtain ⟨i, hi, rfl⟩ := List.mem_map.mp hitem
    cases hu
    rw [directIndexers_eq] at hi
    exact .inr (.inl (mem_report hi hlacks))
  | qualityProfile | rootFolder | pathMapping =>
    obtain ⟨_, -, rfl⟩ := List.mem_map.mp hitem
    cases hu
  | _ => cases hitem

/-- Pruning looks at the download clients and the indexers of a manager. -/
theorem exists_complaint {s : ServiceState} {kind : Section} {item : Item}
    (hitem : item ∈ Shape.manager.items s kind)
    (hkind : kind ∉ [Section.qualityProfile, .rootFolder, .pathMapping]) (caps : Capabilities) :
    ∃ u, complaint? caps item = some u := by
  cases kind with
  | downloadClient | indexer =>
    obtain ⟨_, -, rfl⟩ := List.mem_map.mp hitem
    exact ⟨_, rfl⟩
  | qualityProfile | rootFolder | pathMapping => exact absurd hkind (by decide)
  | _ => cases hitem

/-- The other items of a manager may all be managed. -/
theorem admits_of_mem_items {s : ServiceState} {kind : Section} {item : Item}
    (hitem : item ∈ Shape.manager.items s kind)
    (hkind : kind ∈ [Section.qualityProfile, .rootFolder, .pathMapping]) (caps : Capabilities) :
    caps.admits item = true := by
  rw [List.mem_cons, List.mem_cons, List.mem_singleton] at hkind
  rcases hkind with rfl | rfl | rfl <;>
    obtain ⟨_, -, rfl⟩ := List.mem_map.mp hitem <;> rfl

end Prune

/-- Of an aggregator's configuration nothing is reported. -/
theorem Compile.report_of_aggregator {pre : String} {m : Managed} {secrets : SecretMap}
    {s : ServiceState} (h : sections pre m secrets = .ok s)
    (hshape : m.declared.shape = .aggregator) (caps : Capabilities) : (prune caps s).2 = [] := by
  rw [sections] at h
  split at h
  · rename_i kind spec hdeclared
    rw [hdeclared] at hshape
    cases hshape
  · rw [aggregator] at h
    obtain ⟨clients, -, h⟩ := bind_eq_ok_iff.mp h
    cases h
    rfl

/-! ## 3. Whole configurations -/

/-- Pruning does not look at the items of the kind. -/
def Overlooked (d : Declared) (kind : Section) : Prop :=
  d.shape = .aggregator ∨ kind ∈ [Section.qualityProfile, .rootFolder, .pathMapping]

/-- What is said of a change that the service is not sent. -/
structure Accounted (caps : Capabilities) (d : Declared) (unrealized : List State.Unrealized)
    (c : Change) : Prop where
  lacks : ∃ item, Lacks caps c item
  reported : ¬ Overlooked d c.kind →
    ∃ item u, c.payload = some item ∧ Prune.complaint? caps item = some u ∧ u ∈ unrealized
  /-- What is overlooked in a manager's configuration is a section that is not supported. -/
  unsupported : d.shape = .manager → Overlooked d c.kind → caps.supports c.kind = false
  silent : d.shape = .aggregator → unrealized = []

/-- **What is withheld is reported, unless it is overlooked.**  A change that the service would be
sent if it could do everything, and is not sent as it is, has its item among the unrealized
features, unless pruning does not look at items of its kind.  For a manager these are the sections
other than download clients and indexers; an aggregator is told of nothing. -/
theorem withheld_accounted {pre : String} {m : Managed} {secrets : SecretMap}
    {full caps : Capabilities} {whole desired : ServiceState} {c : Change} (hfull : full.Full)
    (hwhole : compile pre m secrets full = .ok whole)
    (hdesired : compile pre m secrets caps = .ok desired)
    (hc : c ∈ (diff none whole full).all) (hwithheld : c ∉ (diff none desired caps).all) :
    Accounted caps m.declared desired.unrealized c := by
  obtain ⟨s, hash, hsections, rfl⟩ := Compile.exists_sections_of_compile hdesired
  obtain ⟨s', hash', hsections', rfl⟩ := Compile.exists_sections_of_compile hwhole
  cases hsections.symm.trans hsections'
  -- the comparison sees neither the report nor the digest, nor whether it was pruned
  have hc' : c ∈ (diff none s full).all := by
    rw [← diff_prune none s full]
    exact hc
  have hwithheld' : c ∉ (diff none s caps).all := by
    rw [← diff_prune none s caps]
    exact hwithheld
  obtain ⟨item, hitem, hlacks⟩ :=
    exists_lacks_of_withheld (Compile.fits_sections hsections) hfull hc' hwithheld'
  refine ⟨⟨item, hlacks⟩, fun hseen => ?_, fun hmanager hoverlooked => ?_, fun haggregator => ?_⟩
  · rw [Overlooked, not_or] at hseen
    have hmanager : m.declared.shape = .manager := by
      cases hshape : m.declared.shape with
      | manager => rfl
      | aggregator => exact absurd hshape hseen.1
    rw [hmanager] at hitem
    obtain ⟨u, hu⟩ := Prune.exists_complaint hitem hseen.2 caps
    exact ⟨item, u, hlacks.1, hu, Prune.mem_report_prune hitem hlacks.2 hu⟩
  · rw [hmanager] at hitem
    have hkind := hoverlooked.resolve_left (by rw [hmanager]; exact Shape.noConfusion)
    refine hlacks.2.resolve_right ?_
    rw [Prune.admits_of_mem_items hitem hkind caps]
    exact Bool.noConfusion
  · exact Compile.report_of_aggregator hsections haggregator caps

/-- A manager that lacks the implementation of one of two indexers is told so. -/
theorem withheld_accounted_shows :
    let shows : Resource :=
      { kind := "SonarrConfig", name := "shows"
        spec := [("connection", .object [("url", .string "http://shows")]),
          ("indexers", .object [("direct", .array [
            .object [("name", .string "a"), ("url", .string "http://a"),
              ("implementation", .string "Newznab")],
            .object [("name", .string "a"), ("url", .string "http://b")]])])] }
    let caps : Capabilities := { indexerTypes := ["Newznab"] }
    ∃ m whole desired c, Managed.ofResource shows = .ok m ∧ ({} : Capabilities).Full ∧
      compile "arr-operator" m [] {} = .ok whole ∧ compile "arr-operator" m [] caps = .ok desired ∧
      c ∈ (diff none whole {}).all ∧ c ∉ (diff none desired caps).all ∧
      Accounted caps m.declared desired.unrealized c ∧ ¬ Overlooked m.declared c.kind ∧
      desired.unrealized = [⟨"indexer:Torznab", "not supported by service"⟩] := by
  intro shows caps
  obtain ⟨m, whole, desired, c, hm, hwhole, hdesired, hc, hwithheld, hshape, hkind, hreport⟩ :
      ∃ m whole desired c, Managed.ofResource shows = .ok m ∧
        compile "arr-operator" m [] {} = .ok whole ∧
        compile "arr-operator" m [] caps = .ok desired ∧ c ∈ (diff none whole {}).all ∧
        c ∉ (diff none desired caps).all ∧ m.declared.shape = .manager ∧ c.kind = .indexer ∧
        desired.unrealized = [⟨"indexer:Torznab", "not supported by service"⟩] :=
    ⟨_, _, _, _, rfl, rfl, rfl, .tail _ (.head _), by decide +kernel, rfl, rfl, rfl⟩
  have hfull : ({} : Capabilities).Full := ⟨by decide, rfl, rfl⟩
  refine ⟨m, whole, desired, c, hm, hfull, hwhole, hdesired, hc, hwithheld,
    withheld_accounted hfull hwhole hdesired hc hwithheld, ?_, hreport⟩
  rw [Overlooked, hshape, hkind]
  decide

/-- An aggregator that takes no download clients is not sent the one that was declared for it, and
nothing is reported. -/
theorem not_reported_index :
    ¬ ∀ (pre : String) (r : Resource) (m : Managed) (secrets : SecretMap)
        (full caps : Capabilities) (whole desired : ServiceState) (c : Change),
      Managed.ofResource r = .ok m → full.Full → compile pre m secrets full = .ok whole →
      compile pre m secrets caps = .ok desired → c ∈ (diff none whole full).all →
      c ∉ (diff none desired caps).all → desired.unrealized ≠ [] := by
  intro h
  let index : Resource :=
    { kind := "ProwlarrConfig", name := "index"
      spec := [("connection", .object [("url", .string "http://index")]),
        ("downloadClients", .array [.object [("name", .string "qb"),
          ("url", .string "qbittorrent://qb:8080")]])] }
  exact h "arr-operator" index _ [] {} { downloadClients := false } _ _ _ rfl
    ⟨by decide, rfl, rfl⟩ rfl rfl (.head _) (by decide +kernel) rfl

end Steward
