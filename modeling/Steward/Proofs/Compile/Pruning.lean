import Steward.Proofs.Diff.Pruned

/-!
# Pruning accounts for what it drops

This is about `BasicCompiler._prune`.  Download clients and direct indexers are cut in the same way
(`Cut`): a section that is not supported goes as a whole and is reported once, if there was anything
in it; of one that is supported those items go whose implementation is not listed, and each of them
is reported.  Import lists, media management and authentication stay or go as a whole (`gone`).

`prune_accounts` says so of a whole configuration: the reports are those of the five sections in
order, no other field is touched, and a configuration that was pruned is not pruned again.
-/

namespace Steward

namespace Prune

variable {α : Type}

/-! ## 1. Sections -/

/-- The implementation may be managed: any, if none is listed. -/
def listed (types : List String) (implementation : String) : Bool :=
  types.isEmpty || types.contains implementation

/-- What becomes of the items of a section, and what is reported. -/
structure Cut (supported : Bool) (types : List String) (implementation : α → String)
    (all single : String) (before after : List α) (report : List State.Unrealized) : Prop where
  /-- Items are kept in their order if the section is supported and their implementation listed. -/
  kept : after = before.filter fun i => supported && listed types (implementation i)
  /-- A section that is dropped as a whole is reported once, if there was anything in it. -/
  whole : supported = false → report = if before = [] then [] else [dropped all]
  /-- Single items that are dropped are reported one by one, in their order. -/
  singly : supported = true → report =
    (before.filter fun i => !listed types (implementation i)).map fun i =>
      dropped (single ++ ":" ++ implementation i)

theorem cut_items (implementation : α → String) (all single : String) (supported : Bool)
    (types : List String) (is : List α) :
    Cut supported types implementation all single is
      (items implementation all single supported types is).1
      (items implementation all single supported types is).2 := by
  cases is with
  | nil => exact ⟨rfl, fun _ => rfl, fun _ => rfl⟩
  | cons i is =>
    cases supported with
    | false =>
      refine ⟨?_, fun _ => rfl, Bool.noConfusion⟩
      rw [List.filter_eq_nil_iff.mpr fun _ _ => Bool.noConfusion]
      rfl
    | true =>
      refine ⟨?_, Bool.noConfusion, fun _ => ?_⟩
      · rw [items_supported]
        cases types with
        | nil => exact (List.filter_eq_self.mpr fun _ _ => rfl).symm
        | cons t types => rfl
      · cases types with
        | nil =>
          rw [List.filter_eq_nil_iff.mpr fun _ _ => Bool.noConfusion]
          rfl
        | cons t types => rfl

/-- The report of a section that goes as a whole, or not at all. -/
def gone (feature : String) (supported present : Bool) : List State.Unrealized :=
  if present && !supported then [dropped feature] else []

/-- A list that nothing is listed for stays or goes as a whole. -/
theorem items_all (implementation : α → String) (all single : String) (supported : Bool)
    (is : List α) : items implementation all single supported [] is =
      (if supported then is else [], gone all supported !is.isEmpty) := by
  cases is <;> cases supported <;> rfl

theorem whole_eq (feature : String) (supported : Bool) (part : Option α) :
    whole feature supported part =
      (if supported then part else none, gone feature supported part.isSome) := by
  cases part <;> cases supported <;> rfl

/-! ## 2. Cutting again -/

theorem items_items (implementation : α → String) (all single : String) (supported : Bool)
    (types : List String) (is : List α) :
    items implementation all single supported types
        (items implementation all single supported types is).1 =
      ((items implementation all single supported types is).1, []) := by
  have hfirst := cut_items implementation all single supported types is
  generalize (items implementation all single supported types is).1 = kept at hfirst ⊢
  have hagain := cut_items implementation all single supported types kept
  refine Prod.ext ?_ ?_
  · rw [hagain.kept, hfirst.kept, List.filter_filter]
    simp only [Bool.and_self]
  · cases supported with
    | false =>
      have hnone : kept = [] :=
        hfirst.kept.trans (List.filter_eq_nil_iff.mpr fun _ _ => Bool.noConfusion)
      rw [hagain.whole rfl, if_pos hnone]
    | true =>
      rw [hagain.singly rfl, hfirst.kept, List.filter_filter]
      simp

section Whole

variable {β : Type} {supported : Bool} {kept part absent : β}

/-- What is left of a section that stays or goes as a whole stays. -/
theorem stays (h : kept = if supported then part else absent) :
    (if supported then kept else absent) = kept := by
  subst h
  cases supported <;> rfl

/-- What is left of such a section is not reported. -/
theorem gone_of_kept {p : β → Bool} (habsent : p absent = false)
    (h : kept = if supported then part else absent) (feature : String) :
    gone feature supported (p kept) = [] := by
  subst h
  cases supported with
  | false => simp [gone, habsent]
  | true => simp [gone]

end Whole

end Prune

/-! ## 3. The whole configuration -/

open Prune in
/-- `kept` is what is left of `s`, and the report says what is not. -/
structure Accounts (caps : Capabilities) (s kept : ServiceState) (report : List State.Unrealized) :
    Prop where
  /-- The reports of the sections follow each other. -/
  reported : ∃ clients indexers,
    report = clients ++ indexers ++
      gone "importlists" (caps.supports .importList) (!s.importLists.isEmpty) ++
      gone "mediamanagement" (caps.supports .mediaManagement) s.mediaManagement.isSome ++
      gone "authentication" (caps.supports .authentication) s.authentication.isSome ∧
    Cut (caps.supports .downloadClient) caps.downloadClientTypes (·.implementation)
      "downloadclients" "downloadclient" s.downloadClients kept.downloadClients clients ∧
    Cut (caps.supports .indexer) caps.indexerTypes (·.implementation)
      "indexers" "indexer" (Diff.directIndexers s) (Diff.directIndexers kept) indexers
  /-- Of the indexers only the direct ones are cut. -/
  indexers : kept.indexers = s.indexers.map fun i => { i with direct := Diff.directIndexers kept }
  importLists : kept.importLists = if caps.supports .importList then s.importLists else []
  mediaManagement : kept.mediaManagement =
    if caps.supports .mediaManagement then s.mediaManagement else none
  authentication : kept.authentication =
    if caps.supports .authentication then s.authentication else none
  /-- All other fields are what they were. -/
  others : { kept with
      downloadClients := s.downloadClients
      indexers := s.indexers
      importLists := s.importLists
      mediaManagement := s.mediaManagement
      authentication := s.authentication } = s

/-- Pruning section by section. -/
theorem prune_eq (caps : Capabilities) (s : ServiceState) :
    let clients := Prune.items (·.implementation) "downloadclients" "downloadclient"
      (caps.supports .downloadClient) caps.downloadClientTypes s.downloadClients
    let direct := Prune.items (·.implementation) "indexers" "indexer" (caps.supports .indexer)
      caps.indexerTypes (Diff.directIndexers s)
    prune caps s =
      ({ s with
          downloadClients := clients.1
          indexers := s.indexers.map fun i => { i with direct := direct.1 }
          importLists := if caps.supports .importList then s.importLists else []
          mediaManagement := if caps.supports .mediaManagement then s.mediaManagement else none
          authentication := if caps.supports .authentication then s.authentication else none },
        clients.2 ++ direct.2 ++
          Prune.gone "importlists" (caps.supports .importList) (!s.importLists.isEmpty) ++
          Prune.gone "mediamanagement" (caps.supports .mediaManagement) s.mediaManagement.isSome ++
          Prune.gone "authentication" (caps.supports .authentication) s.authentication.isSome) := by
  simp only [prune, Prune.items_all, Prune.whole_eq, Diff.directIndexers_eq]

theorem accounts_prune (caps : Capabilities) (s : ServiceState) :
    Accounts caps s (prune caps s).1 (prune caps s).2 := by
  have hindexers := Diff.directIndexers_prune_eq caps s
  have hprune := prune_eq caps s
  refine
    { reported := ?_
      indexers := ?_
      importLists := ?_
      mediaManagement := ?_
      authentication := ?_
      others := rfl }
  · rw [hindexers, hprune]
    exact ⟨_, _, rfl, Prune.cut_items .., Prune.cut_items ..⟩
  · rw [hindexers, hprune]
  all_goals rw [hprune]

/-- What was pruned is left as it is by pruning again. -/
theorem prune_prune (caps : Capabilities) (s : ServiceState) :
    prune caps (prune caps s).1 = ((prune caps s).1, []) := by
  have hkept := accounts_prune caps s
  have hclients : Prune.items (·.implementation) "downloadclients" "downloadclient"
      (caps.supports .downloadClient) caps.downloadClientTypes (prune caps s).1.downloadClients =
        ((prune caps s).1.downloadClients, []) := Prune.items_items ..
  have hdirect : Prune.items (·.implementation) "indexers" "indexer" (caps.supports .indexer)
      caps.indexerTypes (Diff.directIndexers (prune caps s).1) =
        (Diff.directIndexers (prune caps s).1, []) := by
    rw [Diff.directIndexers_prune_eq]
    exact Prune.items_items ..
  generalize (prune caps s).1 = kept at *
  have hindexers : (kept.indexers.map fun i => { i with direct := Diff.directIndexers kept }) =
      kept.indexers := by
    conv => rhs; rw [hkept.indexers]
    rw [hkept.indexers, Option.map_map]
    rfl
  rw [prune_eq, hclients, hdirect, hindexers, Prune.stays hkept.importLists,
    Prune.stays hkept.mediaManagement, Prune.stays hkept.authentication,
    Prune.gone_of_kept (p := fun is => !is.isEmpty) rfl hkept.importLists,
    Prune.gone_of_kept (p := Option.isSome) rfl hkept.mediaManagement,
    Prune.gone_of_kept (p := Option.isSome) rfl hkept.authentication]
  rfl

/-- **Pruning accounts for everything it drops.**  Whatever the configuration and the capabilities,
those items and sections are kept, as they were and in their order, that the service can do; each
section and each item that is dropped is reported once, in order, and nothing else is; and pruning
what was kept drops nothing more. -/
theorem prune_accounts (caps : Capabilities) (s : ServiceState) :
    Accounts caps s (prune caps s).1 (prune caps s).2 ∧
      prune caps (prune caps s).1 = ((prune caps s).1, []) :=
  ⟨accounts_prune caps s, prune_prune caps s⟩

end Steward
