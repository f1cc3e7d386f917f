import Steward.Proofs.Managed
import Steward.Proofs.Table

/-!
# Documents of finite numbers

Reading is broken off only by a duration without bounds, and only an infinite number is one.  So a
document whose numbers are finite is read to its end, whatever else is wrong with it: the law is
proved of each codec and carried up through lists and blocks (`Codec.Finishes`,
`Block.Finishes`) to whole resources.
-/

namespace Steward

/-! ## 1. Numbers -/

namespace Json

mutual

/-- All binary numbers of a document are finite. -/
def finite : Json → Bool
  | .float x => x.isFinite
  | .array items => finiteItems items
  | .object members => finiteMembers members
  | _ => true

/-- All binary numbers of the items are finite. -/
def finiteItems : List Json → Bool
  | [] => true
  | v :: rest => finite v && finiteItems rest

/-- All binary numbers of the members are finite. -/
def finiteMembers : List (String × Json) → Bool
  | [] => true
  | (_, v) :: rest => finite v && finiteMembers rest

end

theorem finite_of_get? {ms : Members} {key : String} {v : Json} (h : finiteMembers ms = true)
    (hget : Table.get? ms key = some v) : v.finite = true := by
  induction ms with
  | nil => cases hget
  | cons entry rest ih =>
    obtain ⟨k, w⟩ := entry
    rw [finiteMembers, Bool.and_eq_true] at h
    rw [Table.get?_cons] at hget
    split at hget
    · cases hget
      exact h.1
    · exact ih h.2 hget

theorem finite_of_find? {ms : Members} {camel snake name : String} {v : Json}
    (h : finiteMembers ms = true) (hfind : Block.find? ms camel snake = some (name, v)) :
    v.finite = true := by
  rw [Block.find?] at hfind
  split at hfind
  · rename_i w hget
    cases hfind
    exact finite_of_get? h hget
  · obtain ⟨w, hget, hw⟩ := Option.map_eq_some_iff.mp hfind
    cases hw
    exact finite_of_get? h hget

end Json

namespace Duration

theorem total_ne_unbounded (ps : List (List Char × Nat)) : total ps ≠ .error .unbounded := by
  induction ps with
  | nil => exact fun h => nomatch h
  | cons p ps ih =>
    obtain ⟨digits, seconds⟩ := p
    rw [total, numeral]
    split
    · exact fun h => nomatch h
    · cases hrest : total ps with
      | ok m => exact fun h => nomatch h
      | error e =>
        intro h
        cases h
        exact ih hrest

theorem ofText_ne_unbounded (s : String) : ofText s ≠ .error .unbounded := by
  unfold ofText
  dsimp only
  split
  · split <;> exact fun h => nomatch h
  · split
    · exact total_ne_unbounded _
    · exact fun h => nomatch h

theorem ofSeconds_ne_unbounded (v : Json) (n : Int) : ofSeconds v n ≠ .error .unbounded := by
  rw [ofSeconds]
  split <;> exact fun h => nomatch h

/-- Only an infinite number is a duration without bounds. -/
theorem ofJson_ne_unbounded {v : Json} (h : v.finite = true) : ofJson v ≠ .error .unbounded := by
  cases v with
  | string s =>
    rw [ofJson]
    split
    · exact fun h => nomatch h
    · cases hs : ofText s with
      | ok n => exact fun h => nomatch h
      | error e =>
        intro he
        cases he
        exact ofText_ne_unbounded s hs
  | int n => exact ofSeconds_ne_unbounded _ n
  | float x =>
    rw [Json.finite] at h
    rw [ofJson, if_pos h]
    split
    · exact fun h => nomatch h
    · exact ofSeconds_ne_unbounded _ _
  | _ => exact fun h => nomatch h

end Duration

variable {σ α β : Type}

/-! ## 2. Codecs -/

namespace Checked

/-- The reading was not broken off. -/
def ended : Checked α → Bool
  | .unbounded => false
  | _ => true

@[simp] theorem ended_valid (a : α) : (valid a).ended = true := rfl
@[simp] theorem ended_fault (f : Fault) : (fault f : Checked α).ended = true := rfl

@[simp] theorem ended_map (f : α → β) (x : Checked α) : (x.map f).ended = x.ended := by
  cases x <;> rfl

@[simp] theorem ended_below (s : Step) (x : Checked α) : (x.below s).ended = x.ended := by
  cases x <;> rfl

@[simp] theorem ended_ap (f : Checked (α → β)) (x : Checked α) :
    (f.ap x).ended = (f.ended && x.ended) := by
  cases f <;> cases x <;> rfl

end Checked

/-- A document of finite numbers is read to its end. -/
class Codec.Finishes (c : Codec α) : Prop where
  ended_read : ∀ v : Json, v.finite = true → (c.read v).ended = true

/-- Members of finite numbers are read to their end. -/
class Block.Finishes (b : Block σ α) : Prop where
  ended_read : ∀ ms : Json.Members, Json.finiteMembers ms = true → (b.read ms).ended = true

namespace Codec

open Finishes

instance : text.Finishes where
  ended_read v _ := by cases v <;> rfl

instance : flag.Finishes where
  ended_read v _ := by
    change (Validator.Lax.flag v).ended = true
    have hwhole (n : Int) : (Validator.Lax.flagOfWhole n).ended = true := by
      unfold Validator.Lax.flagOfWhole
      repeat' split
      all_goals rfl
    cases v with
    | int n => exact hwhole n
    | float x =>
      simp only [Validator.Lax.flag]
      split
      · exact hwhole _
      · rfl
    | string s =>
      simp only [Validator.Lax.flag]
      split <;> rfl
    | _ => rfl

instance : whole.Finishes where
  ended_read v _ := by
    change (Validator.Lax.whole v).ended = true
    cases v with
    | float x =>
      simp only [Validator.Lax.whole, Whole.ofBinary]
      repeat' split
      all_goals rfl
    | string s =>
      simp only [Validator.Lax.whole, Whole.ofText]
      repeat' split
      all_goals rfl
    | _ => rfl

instance : timestamp.Finishes where
  ended_read v _ := by
    change (Validator.Lax.timestamp v).ended = true
    have hnumber (t : Except Timestamp.Problem Timestamp) :
        (Validator.Lax.timestampOfNumber t).ended = true := by
      cases t <;> rfl
    cases v with
    | string s =>
      simp only [Validator.Lax.timestamp, Validator.Lax.timestampOfText]
      split <;> rfl
    | int n =>
      simp only [Validator.Lax.timestamp, Validator.Lax.timestampOfWhole]
      repeat' split
      · exact hnumber _
      · exact hnumber _
      · rfl
    | float x => exact hnumber _
    | _ => rfl

instance : freeForm.Finishes where
  ended_read v _ := by cases v <;> rfl

/-- The one codec that breaks off, and only at an infinite number. -/
instance : duration.Finishes where
  ended_read v hv := by
    have hbounded := Duration.ofJson_ne_unbounded hv
    simp only [duration]
    split
    · rfl
    · exact absurd ‹_› hbounded
    · rfl

instance : Spec.lowerText.Finishes where
  ended_read v hv := (Checked.ended_map _ _).trans (ended_read (c := text) v hv)

variable (c : Codec α) [c.Finishes]

theorem ended_readItems (items : List Json) (index : Nat) (h : Json.finiteItems items = true) :
    (readItems c.read index items).ended = true := by
  induction items generalizing index with
  | nil => rfl
  | cons v rest ih =>
    rw [Json.finiteItems, Bool.and_eq_true] at h
    rw [readItems, Checked.ended_ap, Checked.ended_map, Checked.ended_below, ended_read v h.1,
      ih _ h.2]
    rfl

instance : c.list.Finishes where
  ended_read v hv := by
    cases v with
    | array items => exact c.ended_readItems items 0 hv
    | _ => rfl

instance : c.nullable.Finishes where
  ended_read v hv := by
    cases v with
    | null => rfl
    | _ => exact (Checked.ended_map _ _).trans (ended_read _ hv)

end Codec

/-! ## 3. Blocks -/

namespace Block

open Finishes

instance (f : α → β) (b : Block σ α) [b.Finishes] : (f <$> b).Finishes where
  ended_read ms h := (Checked.ended_map _ _).trans (ended_read ms h)

instance (f : Block σ (α → β)) (b : Unit → Block σ α) [f.Finishes] [(b ()).Finishes] :
    (Seq.seq f b).Finishes where
  ended_read ms h := by
    refine (Checked.ended_ap _ _).trans ?_
    rw [ended_read (b := f) ms h, ended_read (b := b ()) ms h]
    rfl

section

variable {c : Codec α} [c.Finishes] {camel snake : String}

/-- A member is read to its end where it is found. -/
theorem ended_member {ms : Json.Members} {absent : Checked α} (h : Json.finiteMembers ms = true)
    (habsent : absent.ended = true) :
    (match find? ms camel snake with
      | some (name, v) => (c.read v).below (.member name)
      | none => absent).ended = true := by
  split
  · rename_i name v hfind
    exact (Checked.ended_below _ _).trans
      (Codec.Finishes.ended_read v (Json.finite_of_find? h hfind))
  · exact habsent

instance (get : σ → α) : (required camel snake c get).Finishes where
  ended_read _ h := ended_member h rfl

instance (default : α) (get : σ → α) : (defaulted camel snake c default get).Finishes where
  ended_read _ h := ended_member h rfl

instance {c : Codec (Option α)} [c.Finishes] (get : σ → Option α) :
    (optionalBy camel snake c get).Finishes where
  ended_read _ h := ended_member h rfl

instance (get : σ → Option α) : (optional camel snake c get).Finishes :=
  inferInstanceAs (optionalBy camel snake c.nullable get).Finishes

end

instance (name : String) (b : Block α α) [b.Finishes] : (b.codec name).Finishes where
  ended_read v hv := by
    cases v with
    | object ms => exact ended_read (b := b) ms hv
    | _ => rfl

end Block

/-! ## 4. Specifications and statuses -/

namespace Spec

instance : KeyRef.codec.Finishes := by
  unfold KeyRef.codec KeyRef.block
  infer_instance

instance : CredentialsRef.codec.Finishes := by
  unfold CredentialsRef.codec CredentialsRef.block
  infer_instance

instance : Connection.codec.Finishes := by
  unfold Connection.codec Connection.block
  infer_instance

instance : Tuning.codec.Finishes := by
  unfold Tuning.codec Tuning.block
  infer_instance

instance : DownloadClient.codec.Finishes := by
  unfold DownloadClient.codec DownloadClient.block
  infer_instance

instance : Indexers.codec.Finishes := by
  unfold Indexers.codec Indexers.block AggregatorRef.codec AggregatorRef.block DirectIndexer.codec
    DirectIndexer.block
  infer_instance

instance : Manager.block.Finishes := by
  unfold Manager.block PathMapping.codec PathMapping.block ImportList.codec ImportList.block
    MediaManagement.codec MediaManagement.block Authentication.codec Authentication.block
  infer_instance

instance : Aggregator.block.Finishes := by
  unfold Aggregator.block AggregatorIndexer.codec AggregatorIndexer.block Proxy.codec Proxy.block
    Application.codec Application.block
  infer_instance

end Spec

instance : Status.block.Finishes := by
  unfold Status.block Condition.codec Condition.block HealthSummary.codec HealthSummary.block
    IssueSummary.codec IssueSummary.block RegistrationRecord.codec RegistrationRecord.block
  infer_instance

/-! ## 5. Resources -/

/-- All binary numbers of both documents of a resource are finite. -/
def Resource.finite (r : Resource) : Bool :=
  Json.finiteMembers r.spec && Json.finiteMembers r.status

/-- What was read to its end was not broken off, under whatever name it is reported. -/
theorem Checked.mapError_toExcept {x : Checked α} {block : String} (h : x.ended = true) :
    (x.toExcept block).mapError ManagedError.ofRead ≠ .error .unbounded := by
  cases x with
  | unbounded => cases h
  | _ => exact fun h => nomatch h

/-- **Reading to the end.**  A resource of finite numbers is read, or refused for what is wrong with
it. -/
theorem Managed.ofResource_ne_unbounded {r : Resource} (h : r.finite = true) :
    Managed.ofResource r ≠ .error .unbounded := by
  rw [Resource.finite, Bool.and_eq_true] at h
  have hspec (kind : Kind) :
      (Declared.read kind r.spec).mapError ManagedError.ofRead ≠ .error .unbounded := by
    cases kind with
    | manager k =>
      refine Checked.mapError_toExcept ((Checked.ended_map _ _).trans ?_)
      exact Block.Finishes.ended_read r.spec h.1
    | aggregator =>
      refine Checked.mapError_toExcept ((Checked.ended_map _ _).trans ?_)
      exact Block.Finishes.ended_read r.spec h.1
  have hstatus : (Status.ofMembers r.status).mapError ManagedError.ofRead ≠ .error .unbounded :=
    Checked.mapError_toExcept (Block.Finishes.ended_read r.status h.2)
  rw [ofResource]
  split
  · intro he
    cases he
  · rename_i kind _
    cases hread : (Declared.read kind r.spec).mapError ManagedError.ofRead with
    | error e =>
      intro he
      cases he
      exact hspec kind hread
    | ok declared =>
      cases hread' : (Status.ofMembers r.status).mapError ManagedError.ofRead with
      | error e =>
        intro he
        cases he
        exact hstatus hread'
      | ok status =>
        intro he
        cases he

end Steward
