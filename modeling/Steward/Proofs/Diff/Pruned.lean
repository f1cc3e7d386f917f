import Steward.Compile.Prune
import Steward.Diff

/-!
# Pruning and differences

What a service cannot do is left out twice: `prune` (the compiler's `_prune`) cuts it from a desired
configuration, and `diff` (`diff_ir`) passes it over on both sides.  The two agree.  Of a section
that is supported, pruning keeps the items that the comparison looks at and no others; a section
that is not supported is not compared at all.  So the changes to a pruned configuration are those to
the whole one (`diff_prune`), whatever was observed.
-/

namespace Steward

/-! ## 1. What pruning keeps -/

namespace Prune

variable {α : Type}

/-- Of a supported section those items are kept whose implementation the service has. -/
theorem items_supported (implementation : α → String) (all single : String) (types : List String)
    (is : List α) :
    (items implementation all single true types is).1 =
      if types.isEmpty then is else is.filter fun i => types.contains (implementation i) := by
  rw [items]
  by_cases his : is.isEmpty
  · rw [if_pos his, List.isEmpty_iff.mp his, List.filter_nil, ite_self]
  · rw [if_neg his, Bool.not_true, if_neg Bool.false_ne_true]
    split <;> rfl

end Prune

namespace Diff

variable {caps : Capabilities} {s : ServiceState}

theorem downloadClients_prune (h : caps.supports .downloadClient = true) :
    (prune caps s).1.downloadClients = supportedClients caps s.downloadClients := by
  have hkept : (prune caps s).1.downloadClients =
      (Prune.items (·.implementation) "downloadclients" "downloadclient"
        (caps.supports .downloadClient) caps.downloadClientTypes s.downloadClients).1 := rfl
  rw [hkept, h, Prune.items_supported]
  rfl

/-- The direct indexers, none where there is no section for them. -/
theorem directIndexers_eq (s : ServiceState) :
    directIndexers s = (s.indexers.map (·.direct)).getD [] := by
  rw [directIndexers]
  cases s.indexers <;> rfl

theorem directIndexers_prune_eq (caps : Capabilities) (s : ServiceState) :
    directIndexers (prune caps s).1 =
      (Prune.items (·.implementation) "indexers" "indexer" (caps.supports .indexer)
        caps.indexerTypes (directIndexers s)).1 := by
  simp only [directIndexers_eq, prune]
  cases s.indexers <;> rfl

theorem directIndexers_prune (h : caps.supports .indexer = true) :
    directIndexers (prune caps s).1 = supportedIndexers caps (directIndexers s) := by
  rw [directIndexers_prune_eq, h, Prune.items_supported]
  rfl

theorem aggregatorManaged_prune : aggregatorManaged (prune caps s).1 = aggregatorManaged s := by
  simp only [aggregatorManaged, prune]
  cases s.indexers <;> rfl

/-! ## 2. What the comparison looks at -/

/-- What is left of download clients stays as it is when it is looked through again. -/
theorem supportedClients_idem (cs : List State.DownloadClient) :
    supportedClients caps (supportedClients caps cs) = supportedClients caps cs := by
  simp only [supportedClients]
  split
  · rfl
  · rw [List.filter_filter]
    simp only [Bool.and_self]

theorem supportedIndexers_idem (is : List State.Indexer) :
    supportedIndexers caps (supportedIndexers caps is) = supportedIndexers caps is := by
  simp only [supportedIndexers]
  split
  · rfl
  · rw [List.filter_filter]
    simp only [Bool.and_self]

/-- The changes of a section depend on what is desired only where the section is supported. -/
theorem gated_congr {α : Type} [DecidableEq α] {k : Keyed α} {ids : ItemIds} {mode : Mode}
    {observed desired desired' : List α}
    (h : caps.supports k.kind = true → desired = desired') :
    gated caps ids mode k observed desired = gated caps ids mode k observed desired' := by
  rw [gated, gated]
  split
  · rename_i hsupported
    rw [h hsupported]
  · rfl

theorem ofManager_prune (observed : ServiceState) (ids : ItemIds) :
    ofManager observed (prune caps s).1 caps ids = ofManager observed s caps ids := by
  have hclients : gated caps ids .full downloadClients
        (supportedClients caps observed.downloadClients)
        (supportedClients caps (prune caps s).1.downloadClients) =
      gated caps ids .full downloadClients (supportedClients caps observed.downloadClients)
        (supportedClients caps s.downloadClients) :=
    gated_congr fun h => by rw [downloadClients_prune h, supportedClients_idem]
  have hindexers (mode : Mode) : gated caps ids mode indexers
        (supportedIndexers caps (directIndexers observed))
        (supportedIndexers caps (directIndexers (prune caps s).1)) =
      gated caps ids mode indexers (supportedIndexers caps (directIndexers observed))
        (supportedIndexers caps (directIndexers s)) :=
    gated_congr fun h => by rw [directIndexers_prune h, supportedIndexers_idem]
  rw [ofManager, ofManager, hclients, aggregatorManaged_prune, hindexers]
  rfl

/-! ## 3. The change set -/

/-- **Pruning and comparing agree.**  A configuration that was pruned first has the same creations,
updates and deletions, in the same order, as the whole one, whatever was observed and whatever ids
the items have. -/
theorem diff_prune (observed : Option ServiceState) (s : ServiceState) (caps : Capabilities)
    (ids : ItemIds) : diff observed (prune caps s).1 caps ids = diff observed s caps ids := by
  have haggregator : (prune caps s).1.aggregator = s.aggregator := rfl
  have happ : (prune caps s).1.app = s.app := rfl
  simp only [diff, happ, haggregator, ofManager_prune]

end Diff

end Steward
