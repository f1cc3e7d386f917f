import Steward.Proofs.Diff.Section

/-!
# The changes of a whole configuration

A configuration (`IR`) has one of two shapes: that of an acquisition manager, which has no
aggregator section, and that of an aggregator, which has only that section.  In either shape a kind
of item stands in one place (`Shape.items`), so a configuration is one list of items per kind,
`diff_ir` is one `diff_named` for each of them, and the difference of two configurations of one
shape is exact for these lists (`diff_exact`).
-/

namespace Steward

open Diff

/-! ## 1. Shapes -/

/-- The shapes of configurations. -/
inductive Shape where
  | manager
  | aggregator
  deriving DecidableEq, Repr

namespace Shape

/-- A configuration has the shape: no aggregator section, or nothing else to compare. -/
def Fits : Shape → ServiceState → Prop
  | .manager, s => s.aggregator = none
  | .aggregator, s =>
    s.quality = none ∧ s.downloadClients = [] ∧ s.indexers = none ∧ s.rootFolders = [] ∧
      s.pathMappings = []

instance : (shape : Shape) → (s : ServiceState) → Decidable (shape.Fits s)
  | .manager, s => inferInstanceAs (Decidable (s.aggregator = none))
  | .aggregator, s => inferInstanceAs (Decidable (s.quality = none ∧ _))

/-- The items of a kind, where configurations of the shape have them. -/
def items (shape : Shape) (s : ServiceState) (kind : Section) : List Item :=
  match shape, kind with
  | .manager, .qualityProfile => s.quality.toList.map .quality
  | .manager, .downloadClient => s.downloadClients.map .downloadClient
  | .manager, .indexer => (directIndexers s).map .indexer
  | .manager, .rootFolder => s.rootFolders.map .rootFolder
  | .manager, .pathMapping => s.pathMappings.map .pathMapping
  | .aggregator, .indexer => (s.aggregator.getD {}).indexers.map .aggregatorIndexer
  | .aggregator, .indexerProxy => (s.aggregator.getD {}).proxies.map .proxy
  | .aggregator, .application => (s.aggregator.getD {}).applications.map .application
  | .aggregator, .downloadClient =>
    (s.aggregator.getD {}).downloadClients.map .downloadClient
  | _, _ => []

/-- The items of a kind that may be managed. -/
def managed (shape : Shape) (caps : Capabilities) (s : ServiceState) (kind : Section) :
    List Item :=
  (shape.items s kind).filter caps.admits

/-- The items of a kind that were observed and may be managed; none on a service that was never
configured. -/
def observed (shape : Shape) (caps : Capabilities) (s : Option ServiceState) (kind : Section) :
    List Item :=
  match s with
  | some s => shape.managed caps s kind
  | none => []

/-- Root folders are only created, and the indexers of a manager are kept while an aggregator
provides indexers. -/
def mode (shape : Shape) (desired : ServiceState) (kind : Section) : Mode :=
  match shape, kind with
  | .manager, .rootFolder => .createOnly
  | .manager, .indexer => if aggregatorManaged desired then .keepMissing else .full
  | _, _ => .full

end Shape

namespace Diff

variable {caps : Capabilities} {ids : ItemIds}

/-! ## 2. Implementations -/

theorem map_supportedClients (cs : List State.DownloadClient) :
    (supportedClients caps cs).map Item.downloadClient =
      (cs.map Item.downloadClient).filter caps.admits := by
  rw [List.filter_map, supportedClients]
  by_cases h : caps.downloadClientTypes.isEmpty
  · have hp : caps.admits ∘ Item.downloadClient = fun _ => true := by
      funext c
      simp [Capabilities.admits, h]
    rw [if_pos h, hp, List.filter_true]
  · have hp : caps.admits ∘ Item.downloadClient =
        fun c => caps.downloadClientTypes.contains c.implementation := by
      funext c
      simp [Capabilities.admits, h]
    rw [if_neg h, hp]

theorem map_supportedIndexers (is : List State.Indexer) :
    (supportedIndexers caps is).map Item.indexer =
      (is.map Item.indexer).filter caps.admits := by
  rw [List.filter_map, supportedIndexers]
  by_cases h : caps.indexerTypes.isEmpty
  · have hp : caps.admits ∘ Item.indexer = fun _ => true := by
      funext i
      simp [Capabilities.admits, h]
    rw [if_pos h, hp, List.filter_true]
  · have hp : caps.admits ∘ Item.indexer =
        fun i => caps.indexerTypes.contains i.implementation := by
      funext i
      simp [Capabilities.admits, h]
    rw [if_neg h, hp]

/-- Items of other kinds may all be managed. -/
theorem filter_admits_map {α : Type} {f : α → Item} (h : ∀ a, caps.admits (f a) = true)
    (items : List α) : (items.map f).filter caps.admits = items.map f := by
  rw [List.filter_eq_self]
  intro item hitem
  obtain ⟨a, -, rfl⟩ := List.mem_map.mp hitem
  exact h a

/-! ## 3. Managers -/

theorem exact_ofManager (observed desired : ServiceState) :
    Exact caps ids (Shape.manager.mode desired) (Shape.manager.managed caps observed)
      (Shape.manager.managed caps desired) (ofManager observed desired caps ids) := by
  have hquality : Exact caps ids (Shape.manager.mode desired) _ _ _ :=
    exact_gated qualities_faithful observed.quality.toList desired.quality.toList
  have hclients : Exact caps ids (Shape.manager.mode desired) _ _ _ :=
    exact_gated downloadClients_faithful (supportedClients caps observed.downloadClients)
      (supportedClients caps desired.downloadClients)
  have hindexers : Exact caps ids (Shape.manager.mode desired) _ _ _ :=
    exact_gated indexers_faithful (supportedIndexers caps (directIndexers observed))
      (supportedIndexers caps (directIndexers desired))
  have hfolders : Exact caps ids (Shape.manager.mode desired) _ _ _ :=
    exact_gated rootFolders_faithful observed.rootFolders desired.rootFolders
  have hmappings : Exact caps ids (Shape.manager.mode desired) _ _ _ :=
    exact_gated pathMappings_faithful observed.pathMappings desired.pathMappings
  have h := (((hquality.append hclients ?_).append hindexers ?_).append hfolders ?_).append
    hmappings ?_
  · refine h.congr (fun kind => ?_) (fun kind => ?_) <;>
      cases kind <;>
      simp [only, qualities, downloadClients, indexers, rootFolders, pathMappings,
        Shape.managed, Shape.items, map_supportedClients, map_supportedIndexers,
        @filter_admits_map caps _ Item.quality fun _ => rfl,
        @filter_admits_map caps _ Item.rootFolder fun _ => rfl,
        @filter_admits_map caps _ Item.pathMapping fun _ => rfl]
  all_goals
    intro kind
    cases kind <;> simp [only, qualities, downloadClients, indexers, rootFolders, pathMappings]

/-! ## 4. Aggregators -/

theorem exact_ofAggregator (observed desired : ServiceState) :
    Exact caps ids (Shape.aggregator.mode desired) (Shape.aggregator.managed caps observed)
      (Shape.aggregator.managed caps desired)
      (ofAggregator (observed.aggregator.getD {}) (desired.aggregator.getD {}) caps ids) := by
  have hindexers : Exact caps ids (Shape.aggregator.mode desired) _ _ _ :=
    exact_gated aggregatorIndexers_faithful (observed.aggregator.getD {}).indexers
      (desired.aggregator.getD {}).indexers
  have hproxies : Exact caps ids (Shape.aggregator.mode desired) _ _ _ :=
    exact_gated proxies_faithful (observed.aggregator.getD {}).proxies
      (desired.aggregator.getD {}).proxies
  have happlications : Exact caps ids (Shape.aggregator.mode desired) _ _ _ :=
    exact_gated applications_faithful (observed.aggregator.getD {}).applications
      (desired.aggregator.getD {}).applications
  have hclients : Exact caps ids (Shape.aggregator.mode desired) _ _ _ :=
    exact_gated downloadClients_faithful
      (supportedClients caps (observed.aggregator.getD {}).downloadClients)
      (supportedClients caps (desired.aggregator.getD {}).downloadClients)
  have h := ((hindexers.append hproxies ?_).append happlications ?_).append hclients ?_
  · refine h.congr (fun kind => ?_) (fun kind => ?_) <;>
      cases kind <;>
      simp [only, aggregatorIndexers, proxies, applications, downloadClients, Shape.managed,
        Shape.items, map_supportedClients,
        @filter_admits_map caps _ Item.aggregatorIndexer fun _ => rfl,
        @filter_admits_map caps _ Item.proxy fun _ => rfl,
        @filter_admits_map caps _ Item.application fun _ => rfl]
  all_goals
    intro kind
    cases kind <;> simp [only, aggregatorIndexers, proxies, applications, downloadClients]

/-- A section without items has no changes. -/
theorem gated_nil_nil {α : Type} [DecidableEq α] (k : Keyed α) (mode : Mode) :
    gated caps ids mode k [] [] = {} := by
  simp [gated, changesOf, Table.ofItems, Table.ofEntries, Table.setAll]

theorem nil_append (cs : ChangeSet) : ({} : ChangeSet) ++ cs = cs := rfl

/-- Nothing changes in the sections that a configuration of the shape of an aggregator does not
have. -/
theorem ofManager_eq_nil {observed desired : ServiceState} (ho : Shape.aggregator.Fits observed)
    (hd : Shape.aggregator.Fits desired) : ofManager observed desired caps ids = {} := by
  obtain ⟨hoq, hoc, hoi, hor, hop⟩ := ho
  obtain ⟨hdq, hdc, hdi, hdr, hdp⟩ := hd
  simp only [ofManager, directIndexers, hoq, hoc, hoi, hor, hop, hdq, hdc, hdi, hdr, hdp,
    supportedClients, supportedIndexers, List.filter_nil, ite_self, Option.toList_none,
    gated_nil_nil, nil_append]

theorem ofAggregator_new : ofAggregator {} {} caps ids = {} := by
  simp only [ofAggregator, supportedClients, List.filter_nil, ite_self, gated_nil_nil, nil_append]

end Diff

/-! ## 5. Either shape -/

/-- A service that was never configured shows nothing. -/
theorem Shape.managed_new (shape : Shape) (caps : Capabilities) (app : String) (kind : Section) :
    shape.managed caps { app } kind = [] := by
  cases shape <;> cases kind <;> rfl

theorem Shape.fits_new (shape : Shape) (app : String) : shape.Fits { app } := by
  cases shape <;> simp [Shape.Fits]

theorem Shape.observed_eq_managed (shape : Shape) (caps : Capabilities)
    (observed : Option ServiceState) (app : String) (kind : Section) :
    shape.observed caps observed kind = shape.managed caps (observed.getD { app }) kind := by
  cases observed with
  | none => exact (shape.managed_new caps app kind).symm
  | some s => rfl

namespace Diff

theorem diff_of_manager {observed desired : ServiceState} (ho : Shape.manager.Fits observed)
    (hd : Shape.manager.Fits desired) (caps : Capabilities) (ids : ItemIds) :
    diff (some observed) desired caps ids = ofManager observed desired caps ids := by
  have ho' : observed.aggregator = none := ho
  have hd' : desired.aggregator = none := hd
  simp [diff, ho', hd']

theorem diff_of_aggregator {observed desired : ServiceState} (ho : Shape.aggregator.Fits observed)
    (hd : Shape.aggregator.Fits desired) (caps : Capabilities) (ids : ItemIds) :
    diff (some observed) desired caps ids =
      ofAggregator (observed.aggregator.getD {}) (desired.aggregator.getD {}) caps ids := by
  simp only [diff, Option.getD_some, ofManager_eq_nil ho hd, nil_append]
  split
  · rfl
  · rename_i h
    rw [Bool.or_eq_true, not_or, Option.not_isSome_iff_eq_none, Option.not_isSome_iff_eq_none] at h
    rw [h.1, h.2]
    exact ofAggregator_new.symm

/-- The difference of two configurations of one shape is exact for their items. -/
theorem exact_diff {shape : Shape} {observed : Option ServiceState} {desired : ServiceState}
    (ho : ∀ s ∈ observed, shape.Fits s) (hd : shape.Fits desired) (caps : Capabilities)
    (ids : ItemIds) :
    Exact caps ids (shape.mode desired) (shape.observed caps observed)
      (shape.managed caps desired) (diff observed desired caps ids) := by
  have hfits : shape.Fits (observed.getD { app := desired.app }) := by
    cases observed with
    | none => exact shape.fits_new desired.app
    | some s => exact ho s rfl
  have hdiff : diff observed desired caps ids =
      diff (some (observed.getD { app := desired.app })) desired caps ids := by
    cases observed <;> rfl
  rw [hdiff]
  refine Exact.congr ?_
    (fun kind => (shape.observed_eq_managed caps observed desired.app kind).symm) fun _ => rfl
  cases shape with
  | manager =>
    rw [diff_of_manager hfits hd]
    exact exact_ofManager _ desired
  | aggregator =>
    rw [diff_of_aggregator hfits hd]
    exact exact_ofAggregator _ desired

/-- Every change is of a kind that is supported. -/
theorem Exact.supports {mode : Section → Mode} {seen want : Section → List Item} {cs : ChangeSet}
    (h : Exact caps ids mode seen want cs) {c : Change} (hc : c ∈ cs.all) :
    caps.supports c.kind = true := by
  rw [ChangeSet.all, List.mem_append, List.mem_append] at hc
  rcases hc with (hc | hc) | hc
  · exact ((h.creates c).mp hc).1
  · exact ((h.updates c).mp hc).1
  · exact ((h.deletes c).mp hc).1

/-! ## 6. The change set of two configurations -/

/-- **The change set is exact and minimal.**  Among the items that may be managed it creates what is
only desired, updates what is on both sides and disagrees in more than keys and passwords, deletes
what was only observed, within what the mode of the kind allows; the last item of a key counts on
either side; nothing is changed twice, and nothing of a kind that is not supported. -/
theorem change_set_exact (shape : Shape) (observed : Option ServiceState) (desired : ServiceState)
    (caps : Capabilities) (ids : ItemIds) (ho : ∀ s ∈ observed, shape.Fits s)
    (hd : shape.Fits desired) :
    Exact caps ids (shape.mode desired) (shape.observed caps observed)
        (shape.managed caps desired) (diff observed desired caps ids) ∧
      ∀ c ∈ (diff observed desired caps ids).all, caps.supports c.kind = true :=
  ⟨exact_diff ho hd caps ids, fun _ hc => (exact_diff ho hd caps ids).supports hc⟩

/-- An aggregator that lists a proxy twice, while another one is desired. -/
theorem change_set_exact_aggregator :
    let observed : ServiceState :=
      { app := "prowlarr"
        aggregator := some
          { proxies := [⟨"a", "http", "h", 1, "", "", []⟩, ⟨"a", "http", "h", 2, "", "", []⟩] } }
    let desired : ServiceState :=
      { app := "prowlarr", aggregator := some { proxies := [⟨"b", "http", "h", 1, "", "", []⟩] } }
    let ids : ItemIds := [("IndexerProxy", [("a", 7)])]
    let changes : ChangeSet :=
      { creates := [⟨.indexerProxy, "b", none, some (.proxy ⟨"b", "http", "h", 1, "", "", []⟩)⟩]
        deletes := [⟨.indexerProxy, "a", some 7, none⟩] }
    Shape.aggregator.Fits observed ∧ Shape.aggregator.Fits desired ∧
      Exact {} ids (Shape.aggregator.mode desired) (Shape.aggregator.observed {} (some observed))
        (Shape.aggregator.managed {} desired) changes := by
  intro observed desired ids changes
  have hd : Shape.aggregator.Fits desired := by decide
  have ho : ∀ s ∈ some observed, Shape.aggregator.Fits s := by decide
  exact ⟨ho observed rfl, hd, (change_set_exact .aggregator (some observed) desired {} ids ho hd).1⟩

end Diff

end Steward
