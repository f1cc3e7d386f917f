import Steward.Proofs.Json.Reading
import Steward.Proofs.Spec.RoundTrip
import Steward.Proofs.Status.RoundTrip

/-!
# A stored document is stored for good

Documents of every form, specifications and statuses and all their parts (each `SpecModel`), are
read leniently and written strictly: whatever was read is read back from what is stored of it, and
is stored (`to_document`) as the same document again (`Form.stored_for_good`).  This holds with
every validation library that keeps its laws.  Only free-form settings with more levels than the
library serializes are read and cannot be stored at all.  Texts and keys are made of Unicode scalar
values, as in every document (`Json`).
-/

namespace Steward

variable {σ α β : Type}

/-! ## 1. Heights -/

/-- No part of the codec is free-form. -/
class Codec.Flat (c : Codec α) : Prop where
  height_eq : ∀ a, c.height a = 0

/-- No member of the block is free-form. -/
class Block.Flat (b : Block σ α) : Prop where
  height_eq : ∀ s, b.height s = 0

namespace Codec

instance : text.Flat := ⟨fun _ => rfl⟩

instance [Validator] : flag.Flat := ⟨fun _ => rfl⟩

instance [Validator] : whole.Flat := ⟨fun _ => rfl⟩

instance [Validator] : timestamp.Flat := ⟨fun _ => rfl⟩

instance : duration.Flat := ⟨fun _ => rfl⟩

instance : Spec.lowerText.Flat := ⟨fun _ => rfl⟩

theorem foldl_max_zero {c : Codec α} [hc : c.Flat] (items : List α) :
    (items.map c.height).foldl max 0 = 0 := by
  induction items with
  | nil => rfl
  | cons a rest ih => rw [List.map_cons, List.foldl_cons, hc.height_eq, Nat.max_self, ih]

instance {c : Codec α} [c.Flat] : c.list.Flat := ⟨foldl_max_zero⟩

instance {c : Codec α} [hc : c.Flat] : c.nullable.Flat where
  height_eq
    | some a => hc.height_eq a
    | none => rfl

end Codec

namespace Block

theorem height_map (f : α → β) (b : Block σ α) (s : σ) : (f <$> b).height s = b.height s := rfl

theorem height_seq (f : Block σ (α → β)) (x : Block σ α) (s : σ) :
    (f <*> x).height s = max (f.height s) (x.height s) := rfl

theorem height_required (camel snake : String) (c : Codec α) (get : σ → α) (s : σ) :
    (required camel snake c get).height s = c.height (get s) := rfl

theorem height_defaulted (camel snake : String) (c : Codec α) (default : α) (get : σ → α) (s : σ) :
    (defaulted camel snake c default get).height s = c.height (get s) := rfl

theorem height_optional (camel snake : String) (c : Codec α) (get : σ → Option α) (s : σ) :
    (optional camel snake c get).height s = c.nullable.height (get s) := rfl

theorem height_codec (name : String) (b : Block α α) (a : α) :
    (b.codec name).height a = b.height a := rfl

open Codec.Flat (height_eq)

instance {c : Codec α} [hc : c.Flat] (camel snake : String) (get : σ → α) :
    (required camel snake c get).Flat := ⟨fun s => height_eq (get s)⟩

instance {c : Codec α} [c.Flat] (camel snake : String) (default : α) (get : σ → α) :
    (defaulted camel snake c default get).Flat := ⟨fun s => height_eq (get s)⟩

instance {c : Codec (Option α)} [c.Flat] (camel snake : String) (get : σ → Option α) :
    (optionalBy camel snake c get).Flat := ⟨fun s => height_eq (get s)⟩

instance {c : Codec α} [c.Flat] (camel snake : String) (get : σ → Option α) :
    (optional camel snake c get).Flat :=
  inferInstanceAs (optionalBy camel snake c.nullable get).Flat

instance {b : Block σ α} [hb : b.Flat] (f : α → β) : (f <$> b).Flat := ⟨hb.height_eq⟩

instance {f : Block σ (α → β)} {x : Block σ α} [hf : f.Flat] [hx : x.Flat] : (f <*> x).Flat where
  height_eq s := by
    change max (f.height s) (x.height s) = 0
    rw [hf.height_eq, hx.height_eq]
    rfl

instance {b : Block α α} [hb : b.Flat] (name : String) : (b.codec name).Flat := ⟨hb.height_eq⟩

end Block

section

variable [Validator]

namespace Spec

instance : KeyRef.codec.Flat := by
  unfold KeyRef.codec KeyRef.block
  infer_instance

instance : CredentialsRef.codec.Flat := by
  unfold CredentialsRef.codec CredentialsRef.block
  infer_instance

instance : Connection.codec.Flat := by
  unfold Connection.codec Connection.block
  infer_instance

instance : Tuning.codec.Flat := by
  unfold Tuning.codec Tuning.block
  infer_instance

instance : DownloadClient.codec.Flat := by
  unfold DownloadClient.codec DownloadClient.block
  infer_instance

instance : AggregatorRef.codec.Flat := by
  unfold AggregatorRef.codec AggregatorRef.block
  infer_instance

instance : DirectIndexer.codec.Flat := by
  unfold DirectIndexer.codec DirectIndexer.block
  infer_instance

instance : Indexers.codec.Flat := by
  unfold Indexers.codec Indexers.block
  infer_instance

instance : Authentication.codec.Flat := by
  unfold Authentication.codec Authentication.block
  infer_instance

instance : MediaManagement.codec.Flat := by
  unfold MediaManagement.codec MediaManagement.block
  infer_instance

instance : PathMapping.codec.Flat := by
  unfold PathMapping.codec PathMapping.block
  infer_instance

instance : AggregatorIndexer.codec.Flat := by
  unfold AggregatorIndexer.codec AggregatorIndexer.block
  infer_instance

instance : Proxy.codec.Flat := by
  unfold Proxy.codec Proxy.block
  infer_instance

instance : Application.codec.Flat := by
  unfold Application.codec Application.block
  infer_instance

instance : Aggregator.codec.Flat := by
  unfold Aggregator.codec Aggregator.block
  infer_instance

/-- The settings are the only free-form part of an import list. -/
theorem ImportList.height_codec (l : ImportList) :
    ImportList.codec.height l = Json.heightOfMembers l.settings := by
  simp [ImportList.codec, ImportList.block, Block.height_codec, Block.height_map, Block.height_seq,
    Block.height_required, Block.height_defaulted, Block.height_optional, Codec.Flat.height_eq]
  rfl

/-- The import lists are the only part of a manager that has a free-form part. -/
theorem Manager.height_codec (m : Manager) :
    Manager.codec.height m = ImportList.codec.list.height m.importLists := by
  simp [Manager.codec, Manager.block, Block.height_codec, Block.height_map, Block.height_seq,
    Block.height_required, Block.height_defaulted, Block.height_optional, Codec.Flat.height_eq]

end Spec

instance : IssueSummary.codec.Flat := by
  unfold IssueSummary.codec IssueSummary.block
  infer_instance

instance : HealthSummary.codec.Flat := by
  unfold HealthSummary.codec HealthSummary.block
  infer_instance

instance : RegistrationRecord.codec.Flat := by
  unfold RegistrationRecord.codec RegistrationRecord.block
  infer_instance

instance : Condition.codec.Flat := by
  unfold Condition.codec Condition.block
  infer_instance

instance : Status.codec.Flat := by
  unfold Status.codec Status.block
  infer_instance

/-! ## 2. Forms -/

/-- The forms of the documents that are stored, and of their parts. -/
inductive Form : {α : Type} → Codec α → Type
  | keyRef : Form Spec.KeyRef.codec
  | credentialsRef : Form Spec.CredentialsRef.codec
  | connection : Form Spec.Connection.codec
  | tuning : Form Spec.Tuning.codec
  | downloadClient : Form Spec.DownloadClient.codec
  | aggregatorRef : Form Spec.AggregatorRef.codec
  | directIndexer : Form Spec.DirectIndexer.codec
  | indexers : Form Spec.Indexers.codec
  | importList : Form Spec.ImportList.codec
  | authentication : Form Spec.Authentication.codec
  | mediaManagement : Form Spec.MediaManagement.codec
  | pathMapping : Form Spec.PathMapping.codec
  | manager : Form Spec.Manager.codec
  | aggregatorIndexer : Form Spec.AggregatorIndexer.codec
  | proxy : Form Spec.Proxy.codec
  | application : Form Spec.Application.codec
  | aggregator : Form Spec.Aggregator.codec
  | issueSummary : Form IssueSummary.codec
  | healthSummary : Form HealthSummary.codec
  | registration : Form RegistrationRecord.codec
  | condition : Form Condition.codec
  | status : Form Status.codec

namespace Form

variable {c : Codec α}

/-- The free-form settings in a document: only import lists have any. -/
def settings : {α : Type} → {c : Codec α} → Form c → α → List Json.Members
  | _, _, importList, l => [l.settings]
  | _, _, manager, m => m.importLists.map (·.settings)
  | _, _, _, _ => []

/-- The settings are all that is too high in a document. -/
theorem height_eq (f : Form c) (a : α) :
    c.height a = ((f.settings a).map Json.heightOfMembers).foldl max 0 := by
  cases f with
  | importList => exact (Spec.ImportList.height_codec a).trans (Nat.zero_max _).symm
  | manager =>
    have hlists : Spec.ImportList.codec.height = Json.heightOfMembers ∘ Spec.ImportList.settings :=
      funext Spec.ImportList.height_codec
    rw [Spec.Manager.height_codec, settings, List.map_map, ← hlists]
    rfl
  | _ => exact Codec.Flat.height_eq a

theorem read_write [Validator.Lawful] (f : Form c) {v : Json} (hv : v.finite = true) {a : α}
    (h : c.read v = .valid a) : c.read (c.write a) = .valid a := by
  cases f <;> exact Codec.read_write_of_read hv h

/-! ## 3. Storing -/

omit [Validator] in
theorem foldl_max_le_iff {ns : List Nat} {m n : Nat} :
    ns.foldl max m ≤ n ↔ m ≤ n ∧ ∀ k ∈ ns, k ≤ n := by
  induction ns generalizing m with
  | nil => simp
  | cons k rest ih =>
    rw [List.foldl_cons, ih, Nat.max_le, List.forall_mem_cons]
    exact and_assoc

/-- Whether a document can be stored depends on its settings only. -/
theorem height_le_iff (f : Form c) (a : α) : c.height a ≤ Validator.levels ↔
    ∀ ms ∈ f.settings a, Json.heightOfMembers ms ≤ Validator.levels := by
  rw [f.height_eq, foldl_max_le_iff, List.forall_mem_map]
  exact and_iff_right (Nat.zero_le _)

/-- **A stored document is stored for good.**  What was read of a document of finite numbers is
read back from what is stored of it, and stored as the same document again, unless its settings have
more levels than the validation library serializes: then it is not stored, and the library says
why. -/
theorem stored_for_good [Validator.Lawful] (f : Form c) {v : Json} (hv : v.finite = true) {a : α}
    (h : c.read v = .valid a) :
    ((∀ ms ∈ f.settings a, Json.heightOfMembers ms ≤ Validator.levels) →
      ∃ d, c.document a = .ok d ∧ c.read d = .valid a ∧
        ∀ b, c.read d = .valid b → c.document b = .ok d) ∧
    ((∃ ms ∈ f.settings a, Validator.levels < Json.heightOfMembers ms) →
      c.document a = .error (.tooDeep Validator.depthText)) := by
  rw [← f.height_le_iff]
  constructor
  · intro hle
    have hstored : c.document a = .ok (c.write a) := if_neg (Nat.not_lt.mpr hle)
    refine ⟨c.write a, hstored, f.read_write hv h, fun b hb => ?_⟩
    rw [f.read_write hv h] at hb
    rwa [← Checked.valid.inj hb]
  · rintro ⟨ms, hms, hdeep⟩
    refine if_pos (Nat.lt_of_not_le fun hle => ?_)
    exact Nat.not_le_of_lt hdeep ((f.height_le_iff a).mp hle ms hms)

end Form

end

namespace Form

/-- A specification with names in both cases, a duration in words, a flag as a word, a null and
settings that hold one. -/
def watched : Json :=
  .object [
    ("connection", .object [("url", .string "http://shows"), ("api_key_secret_ref", .null),
      ("timeout", .string "1m30s")]),
    ("import_lists", .array [.object [("name", .string "watched"), ("type", .string "Trakt"),
      ("enabled", .string "Off"), ("settings", .object [("limit", .null)])]])]

def watchedManager : Spec.Manager where
  connection := ⟨"http://shows", none, false, some 90⟩
  qualityPreset := none
  downloadClients := []
  indexers := none
  rootFolders := []
  pathMappings := []
  importLists :=
    [⟨"watched", "Trakt", false, true, false, none, none, [("limit", .null)], none⟩]
  mediaManagement := none
  authentication := none
  tuning := none

/-- What is stored has all names in camel case, the duration in seconds, and a null in the settings
only. -/
theorem stored_for_good_watched :
    watched.finite = true ∧ Spec.Manager.codec.read watched = .valid watchedManager ∧
      let d : Json := .object [
        ("connection", .object [("url", .string "http://shows"),
          ("insecureSkipVerify", .bool false), ("timeout", .int 90)]),
        ("downloadClients", .array []), ("rootFolders", .array []),
        ("remotePathMappings", .array []),
        ("importLists", .array [.object [("name", .string "watched"), ("type", .string "Trakt"),
          ("enabled", .bool false), ("enableAuto", .bool true), ("searchOnAdd", .bool false),
          ("settings", .object [("limit", .null)])]])]
      Spec.Manager.codec.document watchedManager = .ok d ∧
        Spec.Manager.codec.read d = .valid watchedManager := by
  have hfinite : watched.finite = true := by decide
  have hread : Spec.Manager.codec.read watched = .valid watchedManager := rfl
  obtain ⟨hstored, -⟩ := manager.stored_for_good hfinite hread
  obtain ⟨d, hd, hback, -⟩ := hstored (by decide)
  have hsame : .ok d = Spec.Manager.codec.document watchedManager := hd.symm
  refine ⟨hfinite, hread, rfl, ?_⟩
  cases hsame
  exact hback

/-- A document of a list in a list, and so on. -/
def nested : Nat → Json
  | 0 => .null
  | n + 1 => .array [nested n]

theorem height_nested (n : Nat) : (nested n).height = n + 1 := by
  induction n with
  | zero => rfl
  | succ n ih => rw [nested, Json.height, Json.heightOfItems, Json.heightOfItems, ih, Nat.max_zero]

theorem depth_nested (n : Nat) : (nested n).depth = n := by
  induction n with
  | zero => rfl
  | succ n ih => rw [nested, Json.depth, Json.depthOfItems, Json.depthOfItems, ih, Nat.max_zero]

/-- Nothing is wrong with it but its levels. -/
theorem readable_nested (n : Nat) : Json.Readable n (nested n) := by
  induction n with
  | zero => exact ⟨⟨rfl, rfl⟩, Nat.le_refl 0, rfl⟩
  | succ n ih =>
    exact Json.readable_array_iff.mpr ⟨Nat.succ_ne_zero n, List.forall_mem_singleton.mpr ih⟩

/-- A list whose settings have one level too many. -/
def unstorable : Json :=
  .object [("name", .string "watched"), ("type", .string "Trakt"),
    ("settings", .object [("limit", nested 255)])]

/-- It is read, but it cannot be stored. -/
theorem not_stored_unstorable :
    unstorable.finite = true ∧ ∃ l, Spec.ImportList.codec.read unstorable = .valid l ∧
      Spec.ImportList.codec.document l = .error (.tooDeep Validator.depthText) := by
  have hfinite : unstorable.finite = true := by
    simp [unstorable, Json.finite, Json.finiteMembers, (readable_nested _).finite]
  refine ⟨hfinite, ⟨"watched", "Trakt", true, true, false, none, none,
    [("limit", nested 255)], none⟩, rfl, if_pos ?_⟩
  rw [Spec.ImportList.height_codec, Json.heightOfMembers, height_nested]
  decide

end Form

end Steward
