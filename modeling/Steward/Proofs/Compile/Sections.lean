import Steward.Compile.Basic
import Steward.Proofs.Diff.Exact
import Steward.Proofs.Fallible

/-!
# What is compiled

Where a service can do everything, nothing is pruned (`prune_of_full`), and a configuration that was
compiled has the sections of its specification item by item (`compiled_of_compile`).  A manager has
no items of an aggregator and an aggregator none of a manager, so that one statement serves both,
and the specification says which shape a configuration has (`fits_sections`).
-/

namespace Steward

/-! ## 1. Services that can do everything -/

/-- Every kind is supported, and no implementations are listed. -/
structure Capabilities.Full (caps : Capabilities) : Prop where
  supports : ∀ kind ∈ Section.known, caps.supports kind = true
  downloadClientTypes : caps.downloadClientTypes = []
  indexerTypes : caps.indexerTypes = []

theorem Prune.items_of_full {α : Type} (implementation : α → String) (all single : String)
    (is : List α) : items implementation all single true [] is = (is, []) := by
  rw [items]
  split <;> rfl

theorem Prune.whole_of_full {α : Type} (feature : String) (part : Option α) :
    whole feature true part = (part, []) := by
  cases part <;> rfl

/-- Nothing is pruned, and nothing reported. -/
theorem prune_of_full {caps : Capabilities} (h : caps.Full) (s : ServiceState) :
    prune caps s = (s, []) := by
  have hindexers : (s.indexers.map fun i =>
      { i with direct := (s.indexers.map (·.direct)).getD [] }) = s.indexers := by
    cases s.indexers <;> rfl
  simp only [prune, h.supports _ (by decide : Section.downloadClient ∈ Section.known),
    h.supports _ (by decide : Section.indexer ∈ Section.known),
    h.supports _ (by decide : Section.importList ∈ Section.known),
    h.supports _ (by decide : Section.mediaManagement ∈ Section.known),
    h.supports _ (by decide : Section.authentication ∈ Section.known),
    h.downloadClientTypes, h.indexerTypes, Prune.items_of_full, Prune.whole_of_full, hindexers]
  rfl

/-! ## 2. Sections item by item -/

/-- The download clients of a configuration. -/
def ServiceState.clients (s : ServiceState) : List State.DownloadClient :=
  match s.aggregator with
  | some a => a.downloadClients
  | none => s.downloadClients

namespace Compile

variable {pre : String} {m : Managed} {secrets : SecretMap} {caps : Capabilities}
  {desired : ServiceState}

/-- The configuration has, item by item, what the specification declares. -/
structure Compiled (pre : String) (m : Managed) (secrets : SecretMap) (desired : ServiceState) :
    Prop where
  clients : List.Forall₂ (fun c item => downloadClient pre m secrets c = .ok item)
    m.declared.downloadClients desired.clients
  directIndexers : Diff.directIndexers desired =
    m.declared.directIndexers.map (indexer pre m secrets)
  aggregatorIndexers : (desired.aggregator.getD {}).indexers =
    m.declared.aggregatorIndexers.map (aggregatorIndexer pre m secrets)
  proxies : (desired.aggregator.getD {}).proxies = m.declared.proxies.map (proxy pre m secrets)
  applications : (desired.aggregator.getD {}).applications =
    m.declared.applications.map (application pre m secrets)
  importLists : desired.importLists = m.declared.importLists.map (importList pre m secrets)
  authentication : desired.authentication = m.declared.authentication.map (authentication secrets)

theorem compiled_of_sections (h : sections pre m secrets = .ok desired) :
    Compiled pre m secrets desired := by
  rw [sections] at h
  split at h
  · rename_i kind spec hdeclared
    rw [manager] at h
    obtain ⟨clients, hclients, h⟩ := bind_eq_ok_iff.mp h
    cases h
    have hforall := mapM_eq_ok_iff.mp hclients
    constructor
    all_goals simp only [hdeclared, Diff.directIndexers, Declared.directIndexers, Declared.indexers]
    · rwa [← hdeclared]
    · cases spec.indexers <;> rfl
    all_goals rfl
  · rename_i spec hdeclared
    rw [aggregator] at h
    obtain ⟨clients, hclients, h⟩ := bind_eq_ok_iff.mp h
    cases h
    have hforall := mapM_eq_ok_iff.mp hclients
    constructor
    all_goals simp only [hdeclared]
    · rwa [← hdeclared]
    all_goals rfl

/-- What was compiled is what pruning leaves of the sections, with its report. -/
theorem exists_sections_of_compile (h : compile pre m secrets caps = .ok desired) :
    ∃ s sourceHash, sections pre m secrets = .ok s ∧
      desired = { (prune caps s).1 with unrealized := (prune caps s).2, sourceHash } := by
  rw [compile] at h
  obtain ⟨s, hsections, h⟩ := bind_eq_ok_iff.mp h
  obtain ⟨sourceHash, -, h⟩ := bind_eq_ok_iff.mp h
  cases h
  exact ⟨s, sourceHash, hsections, rfl⟩

/-- **Compiled is item by item what was declared**, where the service can do everything. -/
theorem compiled_of_compile (hfull : caps.Full) (h : compile pre m secrets caps = .ok desired) :
    Compiled pre m secrets desired := by
  obtain ⟨s, hash, hsections, rfl⟩ := exists_sections_of_compile h
  rw [prune_of_full hfull]
  have hs := compiled_of_sections hsections
  exact ⟨hs.clients, hs.directIndexers, hs.aggregatorIndexers, hs.proxies, hs.applications,
    hs.importLists, hs.authentication⟩

end Compile

/-! ## 3. Sections of one shape -/

/-- The shape of the configurations that a specification makes. -/
def Declared.shape : Declared → Shape
  | .manager _ _ => .manager
  | .aggregator _ => .aggregator

theorem Compile.fits_sections {pre : String} {m : Managed} {secrets : SecretMap} {s : ServiceState}
    (h : sections pre m secrets = .ok s) : m.declared.shape.Fits s := by
  rw [sections] at h
  split at h
  · rename_i kind spec hdeclared
    rw [manager] at h
    obtain ⟨clients, -, h⟩ := bind_eq_ok_iff.mp h
    cases h
    rw [hdeclared]
    exact rfl
  · rename_i spec hdeclared
    rw [aggregator] at h
    obtain ⟨clients, -, h⟩ := bind_eq_ok_iff.mp h
    cases h
    rw [hdeclared]
    exact ⟨rfl, rfl, rfl, rfl, rfl⟩

end Steward
