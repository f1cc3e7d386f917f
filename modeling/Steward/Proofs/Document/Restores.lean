import Steward.Proofs.Coordinate.Listed
import Steward.Proofs.Document.Finite
import Steward.Proofs.Document.Lawful
import Steward.Proofs.Text.Case
import Steward.Proofs.Timestamp.Named
import Steward.Proofs.Timestamp.Text

/-!
# What is read is restored

Reading takes many forms of a value, and writing gives one of them.  A codec restores what it reads
of finite numbers when it reads each value back from what it writes of it (`Codec.Restores`); the
law names the values that this holds of, and says that nothing else is ever read.  A block restores
the members of a structure one by one (`Block.Restores`), as long as no name is looked up for two of
them (`Spaced`).
-/

namespace Steward

variable {σ α β : Type}

/-! ## 1. The laws -/

/-- The codec reads good values back, and of finite numbers it reads good values only. -/
class Codec.Restores (c : Codec α) (Good : outParam (α → Prop)) : Prop where
  lawful : c.Lawful Good
  good_of_read : ∀ {v : Json} {a : α}, v.finite = true → c.read v = .valid a → Good a

/-- What was read is read back. -/
theorem Codec.read_write_of_read {c : Codec α} {Good : α → Prop} [hc : c.Restores Good] {v : Json}
    {a : α} (hv : v.finite = true) (h : c.read v = .valid a) : c.read (c.write a) = .valid a :=
  hc.lawful.read_write a (hc.good_of_read hv h)

/-- Names come in pairs, one pair for each member, and no name is in two of them. -/
def Spaced : List String → Prop
  | camel :: snake :: rest => camel ∉ rest ∧ snake ∉ rest ∧ Spaced rest
  | _ => True

instance Spaced.decidable : ∀ names : List String, Decidable (Spaced names)
  | [] | [_] => isTrue trivial
  | _ :: _ :: rest =>
    have := Spaced.decidable rest
    inferInstanceAs (Decidable (_ ∧ _ ∧ _))

theorem Spaced.split : ∀ {left right : List String}, 2 ∣ left.length →
    Spaced (left ++ right) → Spaced left ∧ Spaced right ∧ ∀ n ∈ left, n ∉ right
  | [], _, _, h => ⟨trivial, h, fun _ hn => nomatch hn⟩
  | [_], _, heven, _ => absurd (Nat.le_of_dvd Nat.one_pos heven) (by decide)
  | camel :: snake :: rest, right, heven, h => by
    obtain ⟨hcamel, hsnake, hrest⟩ := h
    obtain ⟨hleft, hright, hapart⟩ := Spaced.split ((Nat.dvd_add_left ⟨1, rfl⟩).mp heven) hrest
    have hmem {n : String} (hn : ¬ n ∈ rest ++ right) : n ∉ rest ∧ n ∉ right :=
      not_or.mp fun h => hn (List.mem_append.mpr h)
    replace hcamel := hmem hcamel
    replace hsnake := hmem hsnake
    refine ⟨⟨hcamel.1, hsnake.1, hleft⟩, hright, fun n hn => ?_⟩
    rcases List.mem_cons.mp hn with rfl | hn
    · exact hcamel.2
    · rcases List.mem_cons.mp hn with rfl | hn
      · exact hsnake.2
      · exact hapart n hn

/-- The block reads the parts of good structures back, if no name is looked up twice, and what is
said of `Every` value that it may read of finite numbers is true of each value that it reads. -/
class Block.Restores (b : Block σ α) (get : outParam (σ → α)) (Good : outParam (σ → Prop))
    (Every : outParam ((α → Prop) → Prop)) : Prop where
  even : 2 ∣ b.names.length
  lawful : Spaced b.names → b.Lawful get Good
  of_read : ∀ {ms : Json.Members} {a : α} {P : α → Prop}, Json.finiteMembers ms = true →
    b.read ms = .valid a → Every P → P a

/-! ## 2. Scalars -/

namespace Codec

instance : text.Restores fun _ => True where
  lawful := text_lawful
  good_of_read _ _ := trivial

section

variable [Validator] [laws : Validator.Lawful]

instance : flag.Restores fun _ => True where
  lawful := flag_lawful
  good_of_read _ _ := trivial

instance : whole.Restores fun _ => True where
  lawful := whole_lawful
  good_of_read _ _ := trivial

/-- The text of a point in time is read as the same point. -/
instance : timestamp.Restores Timestamp.Valid where
  lawful := timestamp_lawful
  good_of_read _ h := laws.timestamp_valid h

end

/-- Text in lower case stays in lower case. -/
instance : Spec.lowerText.Restores fun s => Text.lower s = s where
  lawful := ⟨fun s h => congrArg Checked.valid h, fun _ => Json.noConfusion⟩
  good_of_read _ h := by
    obtain ⟨s, -, rfl⟩ := Checked.map_eq_valid h
    exact Text.lower_lower s

end Codec

/-! ## 3. The library -/

namespace Validator.Lax

/-- Whatever form a point in time has, it can be named. -/
theorem valid_of_timestamp {v : Json} {t : Timestamp} (h : timestamp v = .valid t) : t.Valid := by
  have hnumber {r : Except Timestamp.Problem Timestamp} (h : timestampOfNumber r = .valid t) :
      r = .ok t := by
    cases r with
    | ok u => rw [Checked.valid.inj h]
    | error p => cases h
  cases v with
  | string s =>
    simp only [timestamp, timestampOfText] at h
    split at h
    · cases h
      exact Timestamp.valid_of_ofText ‹_›
    · cases h
    · cases h
  | int n =>
    simp only [timestamp, timestampOfWhole] at h
    split at h
    · exact Timestamp.valid_of_ofCount (hnumber h)
    · split at h
      · exact Timestamp.valid_of_ofBinary (hnumber h)
      · cases h
  | float x => exact Timestamp.valid_of_ofBinary (hnumber h)
  | _ => cases h

theorem timestamp_text {t : Timestamp} (h : t.Valid) : timestamp (.string t.text) = .valid t := by
  simp only [timestamp, timestampOfText, Timestamp.ofText_text h]

end Validator.Lax

/-- The lax mode of the library keeps the laws. -/
instance Validator.lax_lawful : Validator.Lawful where
  flag_bool _ := rfl
  whole_int _ := rfl
  timestamp_text := Lax.timestamp_text
  timestamp_valid := Lax.valid_of_timestamp
  flag_scalar {v _} h := by cases v <;> first | rfl | cases h
  whole_scalar {v _} h := by cases v <;> first | rfl | cases h
  timestamp_scalar {v _} h := by cases v <;> first | rfl | cases h

/-! ## 4. Free-form parts -/

namespace Json

mutual

/-- A document of finite numbers is stored as it is. -/
theorem storable_of_finite : ∀ v : Json, v.finite = true → v.storable = v
  | .null, _ | .bool _, _ | .int _, _ | .string _, _ => rfl
  | .float x, h => by
    rw [finite] at h
    rw [storable, if_pos h]
  | .array items, h => by rw [storable, storableItems_of_finite items h]
  | .object ms, h => by rw [storable, storableMembers_of_finite ms h]

theorem storableItems_of_finite : ∀ vs : List Json, finiteItems vs = true → storableItems vs = vs
  | [], _ => rfl
  | v :: rest, h => by
    rw [finiteItems, Bool.and_eq_true] at h
    rw [storableItems, storable_of_finite v h.1, storableItems_of_finite rest h.2]

theorem storableMembers_of_finite :
    ∀ ms : List (String × Json), finiteMembers ms = true → storableMembers ms = ms
  | [], _ => rfl
  | (key, v) :: rest, h => by
    rw [finiteMembers, Bool.and_eq_true] at h
    rw [storableMembers, storable_of_finite v h.1, storableMembers_of_finite rest h.2]

end

theorem finite_of_mem {vs : List Json} (h : finiteItems vs = true) {v : Json} (hv : v ∈ vs) :
    v.finite = true := by
  induction vs with
  | nil => cases hv
  | cons w rest ih =>
    rw [finiteItems, Bool.and_eq_true] at h
    rcases List.mem_cons.mp hv with rfl | hv
    · exact h.1
    · exact ih h.2 hv

end Json

namespace Codec

instance : freeForm.Restores fun ms => Json.finiteMembers ms = true where
  lawful := by
    refine ⟨fun ms h => ?_, fun _ => Json.noConfusion⟩
    exact congrArg Checked.valid (Json.storableMembers_of_finite ms h)
  good_of_read {v ms} hv h := by
    cases v with
    | object ns =>
      cases h
      exact hv
    | _ => cases h

variable {c : Codec α} {Good : α → Prop} [c.Restores Good]

instance : c.list.Restores fun items => ∀ a ∈ items, Good a where
  lawful := Restores.lawful.list
  good_of_read {v items} hv h a ha := by
    cases v with
    | array vs =>
      obtain ⟨w, hw, hread⟩ := (mem_of_readItems h).1 a ha
      exact Restores.good_of_read (Json.finite_of_mem hv hw) hread
    | _ => cases h

end Codec

/-! ## 5. Members -/

namespace Block

open Codec.Restores (good_of_read)

theorem valid_of_member {c : Codec α} {ms : Json.Members} {camel snake : String}
    {absent : Checked α} {a : α}
    (h : (match find? ms camel snake with
      | some (name, v) => (c.read v).below (.member name)
      | none => absent) = .valid a) (hms : Json.finiteMembers ms = true) :
    (∃ v : Json, v.finite = true ∧ c.read v = .valid a) ∨ absent = .valid a := by
  split at h
  · rename_i name v hfind
    exact Or.inl ⟨v, Json.finite_of_find? hms hfind, Checked.below_eq_valid h⟩
  · exact Or.inr h

section

variable {c : Codec α} {Good : α → Prop} [hc : c.Restores Good] {camel snake : String}

instance (get : σ → α) :
    (required camel snake c get).Restores get (fun s => Good (get s))
      fun P => ∀ a, Good a → P a where
  even := ⟨1, rfl⟩
  lawful _ := required_lawful hc.lawful camel snake get
  of_read {ms a P} hms h hevery := by
    rcases valid_of_member h hms with ⟨v, hv, hread⟩ | habsent
    · exact hevery a (good_of_read hv hread)
    · cases habsent

instance (default : α) (get : σ → α) :
    (defaulted camel snake c default get).Restores get (fun s => Good (get s))
      fun P => ∀ a, Good a ∨ a = default → P a where
  even := ⟨1, rfl⟩
  lawful _ := defaulted_lawful hc.lawful camel snake default get
  of_read {ms a P} hms h hevery := by
    rcases valid_of_member h hms with ⟨v, hv, hread⟩ | habsent
    · exact hevery a (Or.inl (good_of_read hv hread))
    · exact hevery a (Or.inr (Checked.valid.inj habsent).symm)

instance (get : σ → Option α) :
    (optional camel snake c get).Restores get (fun s => ∀ a ∈ get s, Good a)
      fun P => ∀ o : Option α, (∀ a ∈ o, Good a) → P o where
  even := ⟨1, rfl⟩
  lawful _ := optional_lawful hc.lawful camel snake get
  of_read {ms o P} hms h hevery := by
    refine hevery o fun a ha => ?_
    cases ha
    rcases valid_of_member h hms with ⟨v, hv, hread⟩ | habsent
    · cases v with
      | null => cases hread
      | _ =>
        obtain ⟨b, hb, hsome⟩ := Checked.map_eq_valid hread
        cases hsome
        exact good_of_read hv hb
    · cases habsent

end

/-- A duration is written in whole seconds, and they are read as the same duration. -/
instance (camel snake : String) (get : σ → Option Nat) :
    (optionalBy camel snake .duration get).Restores get (fun _ => True) fun P => ∀ o, P o where
  even := ⟨1, rfl⟩
  lawful _ := by
    have hread (n : Nat) (_ : True) :
        Codec.duration.read (Codec.duration.write (some n)) = .valid (some n) := by
      have hn : ¬ ((n : Int) < 0) := Int.not_lt.mpr (Int.natCast_nonneg n)
      simp [Codec.duration, Duration.ofJson, Duration.ofSeconds, hn]
    exact (optionalBy_lawful hread camel snake get).mono fun _ _ _ _ => trivial
  of_read _ _ hevery := hevery _

/-! ## 6. Structures -/

instance {b : Block σ α} {get : σ → α} {Good : σ → Prop} {Every : (α → Prop) → Prop}
    [hb : b.Restores get Good Every] (f : α → β) :
    (f <$> b).Restores (fun s => f (get s)) Good fun P => Every fun a => P (f a) where
  even := hb.even
  lawful h := (hb.lawful h).map f
  of_read hms h hevery := by
    obtain ⟨a, ha, rfl⟩ := Checked.map_eq_valid h
    exact hb.of_read hms ha hevery

instance {f : Block σ (α → β)} {x : Block σ α} {getf : σ → α → β} {getx : σ → α}
    {Goodf Goodx : σ → Prop} {Everyf : ((α → β) → Prop) → Prop} {Everyx : (α → Prop) → Prop}
    [hf : f.Restores getf Goodf Everyf] [hx : x.Restores getx Goodx Everyx] :
    (f <*> x).Restores (fun s => getf s (getx s)) (fun s => Goodf s ∧ Goodx s)
      fun P => Everyf fun g => Everyx fun a => P (g a) where
  even := by
    change 2 ∣ (f.names ++ x.names).length
    rw [List.length_append]
    exact Nat.dvd_add hf.even hx.even
  lawful h := by
    obtain ⟨hnf, hnx, hapart⟩ := Spaced.split hf.even h
    exact ((hf.lawful hnf).mono fun _ hs => hs.1).seq ((hx.lawful hnx).mono fun _ hs => hs.2) hapart
  of_read hms h hevery := by
    obtain ⟨g, a, hg, ha, rfl⟩ := Checked.ap_eq_valid h
    exact hx.of_read hms ha (hf.of_read hms hg hevery)

/-- A block of a structure that looks no name up twice restores the structures whose parts are
good, if every one that is read is. -/
theorem Restores.codec {b : Block α α} {Parts : α → Prop} {Every : (α → Prop) → Prop}
    (hb : b.Restores (fun a => a) Parts Every) {Good : α → Prop} (hnames : Spaced b.names)
    (hparts : ∀ a, Good a → Parts a) (hevery : Every Good) (name : String) :
    (b.codec name).Restores Good where
  lawful := ((hb.lawful hnames).mono hparts).codec name
  good_of_read {v a} hv h := by
    cases v with
    | object ms => exact hb.of_read hv h hevery
    | _ => cases h

end Block

end Steward
