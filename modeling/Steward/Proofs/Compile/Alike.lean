import Steward.Proofs.Compile.Edits
import Steward.Proofs.Spec.Alike

/-!
# Compiling without regard to order

What is compiled depends on the type of service, the name and the specification alone.  Two
resources that have these in common, the specifications up to the order of keys in settings, are
compiled to configurations that differ in the order of keys in settings only, or are not compiled
for the same reason (`compile_alike`).
-/

namespace Steward

open Json

/-! ## 1. Alike configurations -/

/-- All that the compiler looks at is the same: the type of service, the name, and the specification
up to the order of keys in settings. -/
structure Managed.Alike (m m' : Managed) : Prop where
  service : m.service = m'.service
  name : m.name = m'.name
  declared : m.declared.Alike m'.declared

/-- The same list up to the order of keys in its settings. -/
def State.ImportList.Alike (l l' : State.ImportList) : Prop :=
  { l with settings := [] } = { l' with settings := [] } ∧
    Reordered (.object l.settings) (.object l'.settings)

/-- The same configuration up to the order of keys in the settings of its lists. -/
def ServiceState.Alike (s s' : ServiceState) : Prop :=
  { s with importLists := [] } = { s' with importLists := [] } ∧
    List.Forall₂ State.ImportList.Alike s.importLists s'.importLists

/-- Both fail for the same reason, or both succeed with values that are so related. -/
inductive SameOutcome {ε α : Type} (R : α → α → Prop) : Except ε α → Except ε α → Prop
  | error (e : ε) : SameOutcome R (.error e) (.error e)
  | ok {a b : α} : R a b → SameOutcome R (.ok a) (.ok b)

theorem SameOutcome.bind {ε α β : Type} {R : α → α → Prop} {S : β → β → Prop}
    {x y : Except ε α} {f g : α → Except ε β} (h : SameOutcome R x y)
    (hfg : ∀ {a b}, R a b → SameOutcome S (f a) (g b)) : SameOutcome S (x >>= f) (y >>= g) := by
  cases h with
  | error e => exact .error e
  | ok hab => exact hfg hab

theorem SameOutcome.refl {ε α : Type} {R : α → α → Prop} (hR : ∀ a, R a a) (x : Except ε α) :
    SameOutcome R x x := by
  cases x with
  | error e => exact .error e
  | ok a => exact .ok (hR a)

/-! ## 2. Sections -/

namespace Compile

variable {pre : String} {m m' : Managed} {secrets : SecretMap}

/-- Settings that come from a secret are the same, whatever the order of the others. -/
theorem listSettings_reordered {l l' : Spec.ImportList} (h : l.Alike l') :
    Reordered (.object (listSettings secrets l)) (.object (listSettings secrets l')) := by
  obtain ⟨hrest, hsettings⟩ := h
  have href : l.settingsRef = l'.settingsRef := (congrArg Spec.ImportList.settingsRef hrest :)
  rw [listSettings, listSettings, ← href]
  split
  · refine hsettings.setAll fun e he => ?_
    obtain ⟨⟨key, value⟩, -, he⟩ := List.mem_filterMap.mp he
    dsimp only at he
    split at he
    · cases he
      rfl
    · cases he
  · exact hsettings

theorem importList_alike (hname : m.name = m'.name) {l l' : Spec.ImportList} (h : l.Alike l') :
    (importList pre m secrets l).Alike (importList pre m' secrets l') := by
  refine ⟨?_, listSettings_reordered h⟩
  obtain ⟨name, type, enabled, enableAuto, searchOnAdd, profile, folder, settings, ref⟩ := l
  obtain ⟨_, _, _, _, _, _, _, settings', _⟩ := l'
  cases h.1
  rw [importList, importList, itemName, itemName, hname]

/-- All that is compiled besides the lists depends on. -/
structure Agree (m m' : Managed) : Prop where
  service : m.service = m'.service
  name : m.name = m'.name
  connection : m.connection = m'.connection
  downloadClients : m.declared.downloadClients = m'.declared.downloadClients

theorem downloadClients_congr (h : Agree m m') :
    downloadClients pre m secrets = downloadClients pre m' secrets := by
  rw [downloadClients, downloadClients, h.downloadClients, downloadClient_congr h.name]

theorem manager_alike (h : Agree m m') {s s' : Spec.Manager} (hs : s.Alike s') :
    SameOutcome ServiceState.Alike (manager pre m s secrets) (manager pre m' s' secrets) := by
  obtain ⟨hrest, hlists⟩ := hs
  have himported : List.Forall₂ State.ImportList.Alike
      (s.importLists.map (importList pre m secrets))
      (s'.importLists.map (importList pre m' secrets)) := by
    rw [List.forall₂_map_left_iff, List.forall₂_map_right_iff]
    exact hlists.imp fun _ _ hl => importList_alike h.name hl
  obtain ⟨_, _, _, _, _, _, lists, _, _, _⟩ := s
  obtain ⟨_, _, _, _, _, _, lists', _, _, _⟩ := s'
  cases hrest
  rw [manager, manager, downloadClients_congr h]
  refine (SameOutcome.refl (R := Eq) (fun _ => rfl) _).bind ?_
  rintro clients _ rfl
  refine .ok ⟨?_, himported⟩
  simp only [h.service, h.name, connection, h.connection, indexer_congr h.name]

theorem aggregator_alike (h : Agree m m') (s : Spec.Aggregator) :
    SameOutcome ServiceState.Alike (aggregator pre m s secrets) (aggregator pre m' s secrets) := by
  have hindexer : aggregatorIndexer pre m secrets = aggregatorIndexer pre m' secrets := by
    funext i
    rw [aggregatorIndexer, aggregatorIndexer, itemName_congr h.name]
  have hproxy : proxy pre m secrets = proxy pre m' secrets := by
    funext p
    rw [proxy, proxy, itemName_congr h.name]
  have happlication : application pre m secrets = application pre m' secrets := by
    funext a
    rw [application, application, itemName_congr h.name, h.connection]
  rw [aggregator, aggregator, downloadClients_congr h]
  refine (SameOutcome.refl (R := Eq) (fun _ => rfl) _).bind ?_
  rintro clients _ rfl
  refine .ok ⟨?_, .nil⟩
  simp only [h.service, connection, h.connection, hindexer, hproxy, happlication]

/-- The sections of resources that differ in the order of keys only. -/
theorem sections_alike (h : m.Alike m') :
    SameOutcome ServiceState.Alike (sections pre m secrets) (sections pre m' secrets) := by
  obtain ⟨hservice, hname, h⟩ := h
  rw [sections, sections]
  cases hd : m.declared with
  | manager k s =>
    cases hd' : m'.declared with
    | manager k' s' =>
      rw [hd, hd'] at h
      have hrest : { s with importLists := [] } = { s' with importLists := [] } := h.1
      refine manager_alike ⟨hservice, hname, ?_, ?_⟩ h
      · rw [Managed.connection, Managed.connection, hd, hd']
        exact (congrArg Spec.Manager.connection hrest :)
      · rw [hd, hd']
        exact (congrArg Spec.Manager.downloadClients hrest :)
    | aggregator s' =>
      rw [hd, hd'] at h
      exact h.elim
  | aggregator s =>
    cases hd' : m'.declared with
    | manager k' s' =>
      rw [hd, hd'] at h
      exact h.elim
    | aggregator s' =>
      rw [hd, hd'] at h
      obtain rfl : s = s' := h
      refine aggregator_alike ⟨hservice, hname, ?_, ?_⟩ s
      · rw [Managed.connection, Managed.connection, hd, hd']
      · rw [hd, hd']

end Compile

/-! ## 3. Pruning -/

/-- Lists are dropped as a whole or not at all. -/
theorem prune_lists_alike (supported : Bool) {ls ls' : List State.ImportList}
    (h : List.Forall₂ State.ImportList.Alike ls ls') :
    let pruned :=
      Prune.items (fun _ : State.ImportList => "") "importlists" "importlist" supported []
    List.Forall₂ State.ImportList.Alike (pruned ls).1 (pruned ls').1 ∧
      (pruned ls).2 = (pruned ls').2 := by
  have hempty : ls.isEmpty = ls'.isEmpty := by cases h <;> rfl
  simp only [Prune.items, ← hempty]
  cases ls.isEmpty <;> cases supported
  · exact ⟨.nil, rfl⟩
  · exact ⟨h, rfl⟩
  · exact ⟨h, rfl⟩
  · exact ⟨h, rfl⟩

/-- Pruning looks at the lists only to tell whether there are any. -/
theorem prune_alike (caps : Capabilities) {s s' : ServiceState} (h : s.Alike s') :
    (prune caps s).1.Alike (prune caps s').1 ∧ (prune caps s).2 = (prune caps s').2 := by
  obtain ⟨hrest, hlists⟩ := h
  obtain ⟨hkept, hreport⟩ := prune_lists_alike (caps.supports .importList) hlists
  obtain ⟨_, _, _, _, _, _, _, _, _, lists, _, _, _, _⟩ := s
  obtain ⟨_, _, _, _, _, _, _, _, _, lists', _, _, _, _⟩ := s'
  cases hrest
  refine ⟨⟨rfl, hkept⟩, ?_⟩
  rw [prune, prune]
  dsimp only at hreport ⊢
  rw [hreport]

/-! ## 4. The whole -/

/-- **Compiling without regard to order.** -/
theorem compile_alike [Validator] [Room] (pre : String) {m m' : Managed} (secrets : SecretMap)
    (caps : Capabilities) (h : m.Alike m') (hhash : Compile.sourceHash m = Compile.sourceHash m') :
    SameOutcome ServiceState.Alike (compile pre m secrets caps) (compile pre m' secrets caps) := by
  rw [compile, compile, ← hhash]
  refine (Compile.sections_alike h).bind fun {s s'} hs => ?_
  obtain ⟨hkept, hreport⟩ := prune_alike caps hs
  dsimp only
  rw [hreport]
  refine (SameOutcome.refl (R := Eq) (fun _ => rfl) _).bind ?_
  rintro hash _ rfl
  refine .ok ⟨?_, hkept.2⟩
  exact congrArg
    (fun t : ServiceState => { t with unrealized := (prune caps s').2, sourceHash := hash }) hkept.1

end Steward
