import Steward.Diff
import Steward.Proofs.Document.Lawful
import Steward.State.Document

/-!
# Items of all sections

Each section compares items of its own type.  Here the items of all sections are one type, with one
key and one comparison: two items agree when their documents do, the members that a service never
gives back aside.  `Keyed.Faithful` says that a section tells its items apart by this key and
compares them by this comparison, and every section is shown to be faithful.
-/

namespace Steward

open Diff

/-! ## 1. Keys and agreement -/

/-- What an item is told apart by within its section. -/
def Item.key : Item → String
  | .quality q => q.profileName
  | .downloadClient c => c.name
  | .indexer i => i.name
  | .rootFolder f => f.path
  | .pathMapping m => m.host ++ ":" ++ m.remotePath
  | .aggregatorIndexer i => i.name
  | .proxy p => p.name
  | .application a => a.name
  | .document _ => ""

/-- The items have the same members, those aside that a service never gives back. -/
def Item.Agree (a b : Item) : Prop := visibleDocument a.toJson = visibleDocument b.toJson

instance (a b : Item) : Decidable (a.Agree b) :=
  inferInstanceAs (Decidable (Item.visibleDocument a.toJson = Item.visibleDocument b.toJson))

theorem Item.Agree.refl (a : Item) : a.Agree a := rfl

/-- Download clients and indexers are managed where the service has their implementation: any, if
no implementations are listed. -/
def Capabilities.admits (caps : Capabilities) : Item → Bool
  | .downloadClient c =>
    caps.downloadClientTypes.isEmpty || caps.downloadClientTypes.contains c.implementation
  | .indexer i => caps.indexerTypes.isEmpty || caps.indexerTypes.contains i.implementation
  | _ => true

/-! ## 2. Faithful sections -/

/-- The section tells items apart by their key and compares what a service gives back. -/
structure Diff.Keyed.Faithful {α : Type} [DecidableEq α] (k : Keyed α) : Prop where
  key_carry : ∀ a, (k.carry a).key = k.key a
  differs_iff : ∀ a b, k.differs a b = true ↔ ¬ (k.carry a).Agree (k.carry b)

namespace Diff

theorem qualities_faithful : qualities.Faithful where
  key_carry _ := rfl
  differs_iff a b := by
    obtain ⟨_, _⟩ := a
    obtain ⟨_, _⟩ := b
    simp [Keyed.differs, qualities, Item.Agree, Item.toJson, Item.visibleDocument,
      State.Quality.codec, Item.hiddenMembers, Codec.text]

theorem downloadClients_faithful : downloadClients.Faithful where
  key_carry _ := rfl
  differs_iff a b := by
    simp [Keyed.differs, downloadClients, Item.Agree, Item.toJson, Item.visibleDocument,
      State.DownloadClient.codec, Item.hiddenMembers, Codec.text, Codec.whole, Codec.flag]

/-- Lists are told apart by their documents. -/
theorem map_int_inj {xs ys : List Int} : xs.map Json.int = ys.map Json.int ↔ xs = ys :=
  List.map_inj_right fun _ _ => Json.int.inj

theorem map_string_inj {xs ys : List String} :
    xs.map Json.string = ys.map Json.string ↔ xs = ys :=
  List.map_inj_right fun _ _ => Json.string.inj

theorem indexers_faithful : indexers.Faithful where
  key_carry _ := rfl
  differs_iff a b := by
    simp [Keyed.differs, indexers, Item.Agree, Item.toJson, Item.visibleDocument,
      State.Indexer.codec, Item.hiddenMembers, Codec.text, Codec.whole, Codec.flag, Codec.list,
      map_int_inj]

theorem rootFolders_faithful : rootFolders.Faithful where
  key_carry _ := rfl
  differs_iff a b := by
    obtain ⟨_⟩ := a
    obtain ⟨_⟩ := b
    simp [Keyed.differs, rootFolders, Item.Agree, Item.toJson, Item.visibleDocument,
      State.RootFolder.codec, Item.hiddenMembers, Codec.text]

theorem pathMappings_faithful : pathMappings.Faithful where
  key_carry _ := rfl
  differs_iff a b := by
    obtain ⟨_, _, _⟩ := a
    obtain ⟨_, _, _⟩ := b
    simp [Keyed.differs, pathMappings, Item.Agree, Item.toJson, Item.visibleDocument,
      State.PathMapping.codec, Item.hiddenMembers, Codec.text]

theorem aggregatorIndexers_faithful : aggregatorIndexers.Faithful where
  key_carry _ := rfl
  differs_iff a b := by
    simp [Keyed.differs, aggregatorIndexers, Item.Agree, Item.toJson, Item.visibleDocument,
      State.AggregatorIndexer.codec, Item.hiddenMembers, Codec.text, Codec.whole, Codec.flag,
      Codec.list, map_string_inj]

theorem proxies_faithful : proxies.Faithful where
  key_carry _ := rfl
  differs_iff a b := by
    simp [Keyed.differs, proxies, Item.Agree, Item.toJson, Item.visibleDocument,
      State.Proxy.codec, Item.hiddenMembers, Codec.text, Codec.whole, Codec.list, map_string_inj]

theorem applications_faithful : applications.Faithful where
  key_carry _ := rfl
  differs_iff a b := by
    simp [Keyed.differs, applications, Item.Agree, Item.toJson, Item.visibleDocument,
      State.Application.codec, Item.hiddenMembers, Codec.text, Codec.whole, Codec.list,
      map_int_inj]

end Diff

end Steward
