import Steward.Proofs.Document.Restores
import Steward.Proofs.Json.Alike

/-!
# Reading without regard to order

What is read of a document does not depend on the order of its keys, save for the settings that are
kept as they are.  A codec without such settings is plain (`Codec.Plain`): it reads two documents
that are alike as one value, and what it writes is tidy, a document of finite numbers with each key
once.  The law is carried up through lists and blocks; a block writes no key twice as long as no
name is looked up for two of its members (`Block.Distinct`).
-/

namespace Steward

variable {σ α β : Type}

/-! ## 1. What was read -/

theorem Checked.map_eq_valid_iff {f : α → β} {x : Checked α} {b : β} :
    x.map f = .valid b ↔ ∃ a, x = .valid a ∧ b = f a := by
  refine ⟨map_eq_valid, ?_⟩
  rintro ⟨a, rfl, rfl⟩
  exact map_valid f a

theorem Checked.ap_eq_valid_iff {f : Checked (α → β)} {x : Checked α} {b : β} :
    f.ap x = .valid b ↔ ∃ g a, f = .valid g ∧ x = .valid a ∧ b = g a := by
  refine ⟨ap_eq_valid, ?_⟩
  rintro ⟨g, a, rfl, rfl, rfl⟩
  exact ap_valid g a

theorem Checked.below_eq_valid_iff {s : Step} {x : Checked α} {a : α} :
    x.below s = .valid a ↔ x = .valid a :=
  ⟨below_eq_valid, fun h => by rw [h, below_valid]⟩

/-! ## 2. Documents in another order -/

namespace Json

/-- Two documents with each key once that differ in the order of keys only. -/
structure Reordered (v w : Json) : Prop where
  left : v.keysOnce = true
  right : w.keysOnce = true
  alike : v.alike w = true

variable {v w : Json}

theorem reordered_iff :
    Reordered v w ↔ v.keysOnce = true ∧ w.keysOnce = true ∧ v.sorted = w.sorted := by
  constructor
  · rintro ⟨hv, hw, h⟩
    exact ⟨hv, hw, (alike_iff_sorted hv hw).mp h⟩
  · rintro ⟨hv, hw, h⟩
    exact ⟨hv, hw, (alike_iff_sorted hv hw).mpr h⟩

theorem Reordered.refl (h : v.keysOnce = true) : Reordered v v := ⟨h, h, alike_refl h⟩

theorem Reordered.symm (h : Reordered v w) : Reordered w v := by
  rw [reordered_iff] at h ⊢
  exact ⟨h.2.1, h.1, h.2.2.symm⟩

theorem Reordered.height_eq (h : Reordered v w) : v.height = w.height := by
  rw [← height_sorted v, (reordered_iff.mp h).2.2, height_sorted]

/-- Where there are no keys, there is no other order. -/
theorem Reordered.eq_of_depth (h : Reordered v w) (hv : v.depth = 0) : w = v := by
  obtain ⟨-, -, h⟩ := reordered_iff.mp h
  cases v with
  | array vs => cases hv
  | object ms => cases hv
  | _ =>
    cases w <;> cases h
    rfl

theorem Reordered.array {vs : List Json} (h : Reordered (.array vs) w) :
    ∃ ws, w = .array ws ∧ List.Forall₂ Reordered vs ws := by
  rw [reordered_iff] at h
  obtain ⟨hv, hw, h⟩ := h
  cases w with
  | array ws =>
    refine ⟨ws, rfl, ?_⟩
    rw [sorted, sorted, Json.array.injEq] at h
    rw [keysOnce] at hv hw
    induction vs generalizing ws with
    | nil =>
      cases ws with
      | nil => exact .nil
      | cons _ _ => cases h
    | cons v vs ih =>
      cases ws with
      | nil => cases h
      | cons w ws =>
        rw [keysOnceItems, Bool.and_eq_true] at hv hw
        obtain ⟨hsame, hrest⟩ := List.cons.inj h
        exact .cons (reordered_iff.mpr ⟨hv.1, hw.1, hsame⟩) (ih hv.2 ws hw.2 hrest)
  | _ => cases h

/-- The members of two objects in another order: the same keys with reordered values. -/
def Matched (ms ns : Members) : Prop :=
  ∀ key, Option.Rel Reordered (Table.get? ms key) (Table.get? ns key)

theorem Matched.symm {ms ns : Members} (h : Matched ms ns) : Matched ns ms := by
  intro key
  have hkey := h key
  generalize Table.get? ms key = v at hkey ⊢
  generalize Table.get? ns key = w at hkey ⊢
  cases hkey with
  | some hvalue => exact .some hvalue.symm
  | none => exact .none

theorem Matched.keysOnce {ms ns : Members} (h : Matched ms ns) (hms : (Table.keys ms).Nodup) :
    (Json.object ms).keysOnce = true := by
  rw [Json.keysOnce, Bool.and_eq_true, decide_eq_true_iff, keysOnceMembers_iff]
  refine ⟨hms, fun m hm => ?_⟩
  have hkey := h m.1
  rw [(Table.mem_iff_get? hms).mp hm] at hkey
  generalize Table.get? ns m.1 = w at hkey
  cases hkey with
  | some hvalue => exact hvalue.left

/-- Two objects in another order have reordered values under the same keys. -/
theorem reordered_object_iff {ms ns : Members} : Reordered (.object ms) (.object ns) ↔
    (Table.keys ms).Nodup ∧ (Table.keys ns).Nodup ∧ Matched ms ns := by
  constructor
  · rintro ⟨hms, hns, h⟩
    rw [alike_object_iff hms hns] at h
    rw [keysOnce, Bool.and_eq_true, decide_eq_true_iff] at hms hns
    refine ⟨hms.1, hns.1, fun key => ?_⟩
    have hkey := h key
    cases hv : Table.get? ms key with
    | none =>
      rw [hv] at hkey
      generalize Table.get? ns key = w at hkey
      cases hkey
      exact .none
    | some v =>
      cases hw : Table.get? ns key with
      | none =>
        rw [hv, hw] at hkey
        cases hkey
      | some w =>
        rw [hv, hw] at hkey
        cases hkey with
        | some halike =>
          exact .some ⟨keysOnce_of_get? hms.2 hv, keysOnce_of_get? hns.2 hw, halike⟩
  · rintro ⟨hms, hns, h⟩
    have hleft := h.keysOnce hms
    have hright := h.symm.keysOnce hns
    refine ⟨hleft, hright, (alike_object_iff hleft hright).mpr fun key => ?_⟩
    have hkey := h key
    generalize Table.get? ms key = v at hkey ⊢
    generalize Table.get? ns key = w at hkey ⊢
    cases hkey with
    | some hvalue => exact .some hvalue.alike
    | none => exact .none

theorem Reordered.object {ms : Members} (h : Reordered (.object ms) w) :
    ∃ ns, w = .object ns ∧ Matched ms ns := by
  cases w with
  | object ns => exact ⟨ns, rfl, (reordered_object_iff.mp h).2.2⟩
  | _ => cases h.alike

/-- Entries that are set are set in both. -/
theorem Reordered.setAll {ms ns entries : Members} (h : Reordered (.object ms) (.object ns))
    (hentries : ∀ e ∈ entries, e.2.keysOnce = true) :
    Reordered (.object (Table.setAll ms entries)) (.object (Table.setAll ns entries)) := by
  obtain ⟨hms, hns, h⟩ := reordered_object_iff.mp h
  refine reordered_object_iff.mpr ⟨Table.nodup_keys_setAll hms entries,
    Table.nodup_keys_setAll hns entries, fun key => ?_⟩
  rw [Table.get?_setAll, Table.get?_setAll]
  cases hlast : lastNamed Prod.fst key entries with
  | none => exact h key
  | some e => exact .some (.refl (hentries e (lastNamed_eq_some hlast).1))

/-- A member is found under the same name. -/
theorem Matched.find? {ms ns : Members} (h : Matched ms ns) (camel snake : String) :
    Option.Rel (fun p q => p.1 = q.1 ∧ Reordered p.2 q.2) (Block.find? ms camel snake)
      (Block.find? ns camel snake) := by
  rw [Block.find?, Block.find?]
  have hcamel := h camel
  have hsnake := h snake
  generalize Table.get? ms camel = v at hcamel ⊢
  generalize Table.get? ns camel = w at hcamel ⊢
  cases hcamel with
  | some hvalue => exact .some ⟨rfl, hvalue⟩
  | none =>
    generalize Table.get? ms snake = v at hsnake ⊢
    generalize Table.get? ns snake = w at hsnake ⊢
    cases hsnake with
    | some hvalue => exact .some ⟨rfl, hvalue⟩
    | none => exact .none

end Json

open Json

/-! ## 3. The laws -/

/-- The codec reads documents in any order as one value, and writes tidy documents. -/
class Codec.Plain (c : Codec α) : Prop where
  read_of_reordered : ∀ {v w : Json} {a : α}, Reordered v w → c.read v = .valid a →
    c.read w = .valid a
  tidy_write : ∀ a, Tidy (c.write a)

/-- The block reads members in any order as one value, and writes tidy values. -/
class Block.Plain (b : Block σ α) : Prop where
  read_of_matched : ∀ {ms ns : Members} {a : α}, Matched ms ns → b.read ms = .valid a →
    b.read ns = .valid a
  tidy_write : ∀ s, ∀ m ∈ b.write s, Tidy m.2

/-- The block writes each key once, if no name is looked up for two members. -/
class Block.Distinct (b : Block σ α) : Prop where
  even : 2 ∣ b.names.length
  keys_write : ∀ s, ∀ n ∈ Table.keys (b.write s), n ∈ b.names
  nodup_keys : Spaced b.names → ∀ s, (Table.keys (b.write s)).Nodup

/-! ## 4. Scalars, lists and optional parts -/

namespace Codec

theorem read_scalar {c : Codec α} (hc : ∀ {v : Json} {a : α}, c.read v = .valid a → v.depth = 0)
    {v w : Json} {a : α} (h : Reordered v w) (hread : c.read v = .valid a) :
    c.read w = .valid a := by
  rw [h.eq_of_depth (hc hread)]
  exact hread

instance : text.Plain where
  read_of_reordered := read_scalar fun {v _} h => by cases v <;> first | rfl | cases h
  tidy_write _ := ⟨rfl, rfl⟩

instance : Spec.lowerText.Plain where
  read_of_reordered := read_scalar fun {v _} h => by cases v <;> first | rfl | cases h
  tidy_write _ := ⟨rfl, rfl⟩

instance : duration.Plain where
  read_of_reordered := read_scalar fun {v _} h => by cases v <;> first | rfl | cases h
  tidy_write d := by cases d <;> exact ⟨rfl, rfl⟩

section

variable [Validator] [laws : Validator.Lawful]

instance : flag.Plain where
  read_of_reordered := read_scalar laws.flag_scalar
  tidy_write _ := ⟨rfl, rfl⟩

instance : whole.Plain where
  read_of_reordered := read_scalar laws.whole_scalar
  tidy_write _ := ⟨rfl, rfl⟩

end

variable (c : Codec α) [hc : c.Plain]

include hc in
theorem readItems_of_reordered {vs ws : List Json} (h : List.Forall₂ Reordered vs ws)
    {index : Nat} {items : List α} (hread : readItems c.read index vs = .valid items) :
    readItems c.read index ws = .valid items := by
  induction h generalizing index items with
  | nil => exact hread
  | cons hv _ ih =>
    obtain ⟨g, rest, hg, hrest, rfl⟩ := Checked.ap_eq_valid hread
    obtain ⟨a, ha, rfl⟩ := Checked.map_eq_valid hg
    rw [readItems, hc.read_of_reordered hv (Checked.below_eq_valid ha), ih hrest]
    rfl

omit hc in
theorem read_nullable {v : Json} (hv : v ≠ .null) : c.nullable.read v = (c.read v).map some := by
  cases v with
  | null => exact absurd rfl hv
  | _ => rfl

instance : c.list.Plain where
  read_of_reordered {v w a} h hread := by
    cases v with
    | array vs =>
      obtain ⟨ws, rfl, hitems⟩ := h.array
      exact c.readItems_of_reordered hitems hread
    | _ => cases hread
  tidy_write items := by
    rw [list, tidy_array_iff, List.forall_mem_map]
    exact fun a _ => hc.tidy_write a

instance : c.nullable.Plain where
  read_of_reordered {v w a} h hread := by
    by_cases hv : v = .null
    · subst hv
      rwa [h.eq_of_depth rfl]
    · have hw : w ≠ .null := fun hw => hv (h.symm.eq_of_depth (hw ▸ rfl) ▸ hw)
      rw [read_nullable c hv] at hread
      obtain ⟨b, hb, rfl⟩ := Checked.map_eq_valid hread
      rw [read_nullable c hw, hc.read_of_reordered h hb]
      rfl
  tidy_write
    | some a => hc.tidy_write a
    | none => ⟨rfl, rfl⟩

end Codec

/-! ## 5. Blocks -/

namespace Block

section

variable {ms : Members}

theorem read_map_iff {f : α → β} {b : Block σ α} {c : β} :
    (f <$> b).read ms = .valid c ↔ ∃ a, b.read ms = .valid a ∧ c = f a :=
  Checked.map_eq_valid_iff

theorem read_seq_iff {f : Block σ (α → β)} {x : Block σ α} {c : β} :
    (f <*> x).read ms = .valid c ↔
      ∃ g a, f.read ms = .valid g ∧ x.read ms = .valid a ∧ c = g a :=
  Checked.ap_eq_valid_iff

end

section

variable {c : Codec α} [hc : c.Plain] {camel snake : String}

include hc in
theorem read_member {ms ns : Members} {absent : Checked α} {a : α} (h : Matched ms ns)
    (hread : (match Block.find? ms camel snake with
      | some (name, v) => (c.read v).below (.member name)
      | none => absent) = .valid a) :
    (match Block.find? ns camel snake with
      | some (name, v) => (c.read v).below (.member name)
      | none => absent) = .valid a := by
  have hfind := h.find? camel snake
  generalize Block.find? ms camel snake = p at hfind hread
  generalize Block.find? ns camel snake = q at hfind ⊢
  cases hfind with
  | none => exact hread
  | @some p q hvalue =>
    dsimp only at hread ⊢
    rw [hc.read_of_reordered hvalue.2 (Checked.below_eq_valid hread)]
    rfl

instance (get : σ → α) : (required camel snake c get).Plain where
  read_of_matched := read_member
  tidy_write s := (List.forall_mem_singleton).mpr (hc.tidy_write (get s))

instance (default : α) (get : σ → α) : (defaulted camel snake c default get).Plain where
  read_of_matched := read_member
  tidy_write s := (List.forall_mem_singleton).mpr (hc.tidy_write (get s))

instance {c : Codec (Option α)} [hc : c.Plain] (get : σ → Option α) :
    (optionalBy camel snake c get).Plain where
  read_of_matched := read_member
  tidy_write s := by
    rw [optionalBy]
    dsimp only
    split
    · exact (List.forall_mem_singleton).mpr (hc.tidy_write _)
    · exact List.forall_mem_nil _

instance (get : σ → Option α) : (optional camel snake c get).Plain :=
  inferInstanceAs ((optionalBy camel snake c.nullable get).Plain)

end

instance {b : Block σ α} [hb : b.Plain] (f : α → β) : (f <$> b).Plain where
  read_of_matched h hread := by
    obtain ⟨a, ha, rfl⟩ := read_map_iff.mp hread
    exact read_map_iff.mpr ⟨a, hb.read_of_matched h ha, rfl⟩
  tidy_write := hb.tidy_write

instance {f : Block σ (α → β)} {x : Block σ α} [hf : f.Plain] [hx : x.Plain] :
    (f <*> x).Plain where
  read_of_matched h hread := by
    obtain ⟨g, a, hg, ha, rfl⟩ := read_seq_iff.mp hread
    exact read_seq_iff.mpr ⟨g, a, hf.read_of_matched h hg, hx.read_of_matched h ha, rfl⟩
  tidy_write s := List.forall_mem_append.mpr ⟨hf.tidy_write s, hx.tidy_write s⟩

instance (camel snake : String) (c : Codec α) (get : σ → α) :
    (required camel snake c get).Distinct where
  even := ⟨1, rfl⟩
  keys_write _ _ hn := List.mem_singleton.mp hn ▸ List.mem_cons_self
  nodup_keys _ _ := List.nodup_singleton _

instance (camel snake : String) (c : Codec α) (default : α) (get : σ → α) :
    (defaulted camel snake c default get).Distinct where
  even := ⟨1, rfl⟩
  keys_write _ _ hn := List.mem_singleton.mp hn ▸ List.mem_cons_self
  nodup_keys _ _ := List.nodup_singleton _

instance (camel snake : String) (c : Codec (Option α)) (get : σ → Option α) :
    (optionalBy camel snake c get).Distinct where
  even := ⟨1, rfl⟩
  keys_write s n hn := by
    cases hget : get s with
    | none => simp [optionalBy, hget, Table.keys] at hn
    | some a =>
      simp only [optionalBy, hget] at hn
      exact List.mem_singleton.mp hn ▸ List.mem_cons_self
  nodup_keys _ s := by
    rw [optionalBy]
    dsimp only
    split
    · exact List.nodup_singleton _
    · exact List.nodup_nil

instance (camel snake : String) (c : Codec α) (get : σ → Option α) :
    (optional camel snake c get).Distinct :=
  inferInstanceAs (optionalBy camel snake c.nullable get).Distinct

instance {b : Block σ α} [hb : b.Distinct] (f : α → β) : (f <$> b).Distinct where
  even := hb.even
  keys_write := hb.keys_write
  nodup_keys := hb.nodup_keys

instance {f : Block σ (α → β)} {x : Block σ α} [hf : f.Distinct] [hx : x.Distinct] :
    (f <*> x).Distinct where
  even := by
    change 2 ∣ (f.names ++ x.names).length
    rw [List.length_append]
    exact Nat.dvd_add hf.even hx.even
  keys_write s n hn := by
    change n ∈ Table.keys (f.write s ++ x.write s) at hn
    rw [Table.keys, List.map_append, List.mem_append] at hn
    exact List.mem_append.mpr (hn.imp (hf.keys_write s n) (hx.keys_write s n))
  nodup_keys h s := by
    obtain ⟨hnf, hnx, hapart⟩ := Spaced.split hf.even h
    change (Table.keys (f.write s ++ x.write s)).Nodup
    rw [Table.keys, List.map_append]
    refine List.Nodup.append (hf.nodup_keys hnf s) (hx.nodup_keys hnx s) fun n hn hn' => ?_
    exact hapart n (hf.keys_write s n hn) (hx.keys_write s n hn')

/-- What a block writes is tidy if its values are. -/
theorem Distinct.tidy {b : Block α α} [hb : b.Distinct] (hnames : Spaced b.names) {a : α}
    (h : ∀ m ∈ b.write a, Tidy m.2) : Tidy (.object (b.write a)) :=
  tidy_object_iff.mpr ⟨hb.nodup_keys hnames a, h⟩

/-- A plain block that looks no name up twice makes a plain codec. -/
theorem Plain.codec {b : Block α α} (hb : b.Plain) [b.Distinct] (hnames : Spaced b.names)
    (name : String) : (b.codec name).Plain where
  read_of_reordered {v w a} h hread := by
    cases v with
    | object ms =>
      obtain ⟨ns, rfl, hmatched⟩ := h.object
      exact hb.read_of_matched hmatched hread
    | _ => cases hread
  tidy_write a := Distinct.tidy hnames (hb.tidy_write a)

end Block

/-! ## 6. Specifications -/

namespace Spec

open Block

variable [Validator] [Validator.Lawful]

instance : KeyRef.codec.Plain := by
  unfold KeyRef.codec KeyRef.block
  exact Plain.codec inferInstance (of_decide_eq_true rfl) _

instance : CredentialsRef.codec.Plain := by
  unfold CredentialsRef.codec CredentialsRef.block
  exact Plain.codec inferInstance (of_decide_eq_true rfl) _

instance : Connection.codec.Plain := by
  unfold Connection.codec Connection.block
  exact Plain.codec inferInstance (of_decide_eq_true rfl) _

instance : Tuning.codec.Plain := by
  unfold Tuning.codec Tuning.block
  exact Plain.codec inferInstance (of_decide_eq_true rfl) _

instance : DownloadClient.codec.Plain := by
  unfold DownloadClient.codec DownloadClient.block
  exact Plain.codec inferInstance (of_decide_eq_true rfl) _

instance : AggregatorRef.codec.Plain := by
  unfold AggregatorRef.codec AggregatorRef.block
  exact Plain.codec inferInstance (of_decide_eq_true rfl) _

instance : DirectIndexer.codec.Plain := by
  unfold DirectIndexer.codec DirectIndexer.block
  exact Plain.codec inferInstance (of_decide_eq_true rfl) _

instance : Indexers.codec.Plain := by
  unfold Indexers.codec Indexers.block
  exact Plain.codec inferInstance (of_decide_eq_true rfl) _

instance : Authentication.codec.Plain := by
  unfold Authentication.codec Authentication.block
  exact Plain.codec inferInstance (of_decide_eq_true rfl) _

instance : MediaManagement.codec.Plain := by
  unfold MediaManagement.codec MediaManagement.block
  exact Plain.codec inferInstance (of_decide_eq_true rfl) _

instance : PathMapping.codec.Plain := by
  unfold PathMapping.codec PathMapping.block
  exact Plain.codec inferInstance (of_decide_eq_true rfl) _

instance : AggregatorIndexer.codec.Plain := by
  unfold AggregatorIndexer.codec AggregatorIndexer.block
  exact Plain.codec inferInstance (of_decide_eq_true rfl) _

instance : Proxy.codec.Plain := by
  unfold Proxy.codec Proxy.block
  exact Plain.codec inferInstance (of_decide_eq_true rfl) _

instance : Application.codec.Plain := by
  unfold Application.codec Application.block
  exact Plain.codec inferInstance (of_decide_eq_true rfl) _

instance : Aggregator.codec.Plain := by
  unfold Aggregator.codec Aggregator.block
  exact Plain.codec inferInstance (of_decide_eq_true rfl) _

end Spec

end Steward
