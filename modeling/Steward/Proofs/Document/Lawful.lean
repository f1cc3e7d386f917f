import Steward.Document.Block
import Steward.Proofs.Table

/-!
# Reading back what was written

A codec is lawful for the values that satisfy a predicate when it reads each of them back from what
it writes of it.  A block is lawful when it reads a value from *every* document that agrees, on the
names which the block looks up, with what the block writes of it; so two lawful blocks that look up
different names make a lawful block together, and the law of a structure follows from the laws of
its members, in the order in which the block declares them.  At the bottom are the laws of the
validation library (`Validator.Lawful`), which is known by these only.
-/

namespace Steward

variable {σ α β : Type}

/-! ## 1. Scalars and codecs -/

/-- What is relied on of the validation library.  It reads a flag, a whole number and a timestamp
from the form in which it writes them; a timestamp that it has read, in whatever form, is one that
can be named; and it takes no list or object for any of these. -/
class Validator.Lawful [Validator] : Prop where
  flag_bool : ∀ b : Bool, Validator.flag (.bool b) = .valid b
  whole_int : ∀ n : Int, Validator.whole (.int n) = .valid n
  timestamp_text : ∀ {t : Timestamp}, t.Valid →
    Validator.timestamp (.string (Validator.timestampText t)) = .valid t
  timestamp_valid : ∀ {v : Json} {t : Timestamp}, Validator.timestamp v = .valid t → t.Valid
  flag_scalar : ∀ {v : Json} {b : Bool}, Validator.flag v = .valid b → v.depth = 0
  whole_scalar : ∀ {v : Json} {n : Int}, Validator.whole v = .valid n → v.depth = 0
  timestamp_scalar : ∀ {v : Json} {t : Timestamp}, Validator.timestamp v = .valid t → v.depth = 0

/-- The codec reads the good values back, and never writes a null. -/
structure Codec.Lawful (c : Codec α) (Good : α → Prop) : Prop where
  read_write : ∀ a, Good a → c.read (c.write a) = .valid a
  write_ne_null : ∀ a, c.write a ≠ .null

namespace Codec

theorem text_lawful : text.Lawful fun _ => True where
  read_write _ _ := rfl
  write_ne_null _ := Json.noConfusion

section

variable [Validator] [laws : Validator.Lawful]

theorem flag_lawful : flag.Lawful fun _ => True where
  read_write b _ := laws.flag_bool b
  write_ne_null _ := Json.noConfusion

theorem whole_lawful : whole.Lawful fun _ => True where
  read_write n _ := laws.whole_int n
  write_ne_null _ := Json.noConfusion

theorem timestamp_lawful : timestamp.Lawful Timestamp.Valid where
  read_write _ h := laws.timestamp_text h
  write_ne_null _ := Json.noConfusion

end

theorem readItems_map {c : Codec α} {Good : α → Prop} (hc : c.Lawful Good) :
    ∀ (items : List α) (index : Nat), (∀ a ∈ items, Good a) →
      readItems c.read index (items.map c.write) = .valid items
  | [], _, _ => rfl
  | a :: rest, index, h => by
    have hrest := readItems_map hc rest (index + 1) fun b hb => h b (List.mem_cons_of_mem _ hb)
    rw [List.map_cons, readItems, hc.read_write a (h a List.mem_cons_self), hrest]
    rfl

theorem Lawful.list {c : Codec α} {Good : α → Prop} (hc : c.Lawful Good) :
    c.list.Lawful fun items => ∀ a ∈ items, Good a where
  read_write items h := readItems_map hc items 0 h
  write_ne_null _ := Json.noConfusion

/-- A part that may be null is told from the others by the null. -/
theorem Lawful.read_nullable {c : Codec α} {Good : α → Prop} (hc : c.Lawful Good) (a : α)
    (h : Good a) : c.nullable.read (c.write a) = .valid (some a) := by
  have hread := hc.read_write a h
  have hnull := hc.write_ne_null a
  unfold nullable
  cases hw : c.write a with
  | null => exact absurd hw hnull
  | _ =>
    rw [hw] at hread
    simp only [hread, Checked.map_valid]

end Codec

/-! ## 2. Blocks -/

/-- The block reads `get s` from every document that agrees with what it writes of a good `s`, and
writes no member under a name that it does not look up. -/
structure Block.Lawful (b : Block σ α) (get : σ → α) (Good : σ → Prop) : Prop where
  read_of_agree : ∀ s ms, Good s →
    (∀ n ∈ b.names, Table.get? ms n = Table.get? (b.write s) n) → b.read ms = .valid (get s)
  keys_write : ∀ s, ∀ n ∈ Table.keys (b.write s), n ∈ b.names

namespace Block

/-- What a lawful block writes, it reads back. -/
theorem Lawful.read_write {b : Block σ α} {get : σ → α} {Good : σ → Prop}
    (h : b.Lawful get Good) (s : σ) (hs : Good s) : b.read (b.write s) = .valid (get s) :=
  h.read_of_agree s _ hs fun _ _ => rfl

theorem Lawful.map {b : Block σ α} {get : σ → α} {Good : σ → Prop} (h : b.Lawful get Good)
    (f : α → β) : (f <$> b).Lawful (fun s => f (get s)) Good where
  read_of_agree s ms hs hag := by
    change (b.read ms).map f = _
    rw [h.read_of_agree s ms hs hag]
    rfl
  keys_write := h.keys_write

/-- Two blocks that look up different names. -/
theorem Lawful.seq {f : Block σ (α → β)} {x : Block σ α} {getf : σ → α → β} {getx : σ → α}
    {Good : σ → Prop} (hf : f.Lawful getf Good) (hx : x.Lawful getx Good)
    (hdis : ∀ n ∈ f.names, n ∉ x.names) :
    (f <*> x).Lawful (fun s => getf s (getx s)) Good where
  read_of_agree s ms hs hag := by
    -- a name of one side is not written by the other, so each side sees its own part only
    have hagf : ∀ n ∈ f.names, Table.get? ms n = Table.get? (f.write s) n := by
      intro n hn
      have hnone : Table.get? (x.write s) n = none :=
        Table.get?_eq_none fun hk => hdis n hn (hx.keys_write s n hk)
      rw [hag n (List.mem_append_left _ hn)]
      change Table.get? (f.write s ++ x.write s) n = _
      rw [Table.get?_append, hnone, Option.or_none]
    have hagx : ∀ n ∈ x.names, Table.get? ms n = Table.get? (x.write s) n := by
      intro n hn
      have hnone : Table.get? (f.write s) n = none :=
        Table.get?_eq_none fun hk => hdis n (hf.keys_write s n hk) hn
      rw [hag n (List.mem_append_right _ hn)]
      change Table.get? (f.write s ++ x.write s) n = _
      rw [Table.get?_append, hnone, Option.none_or]
    change (f.read ms).ap (x.read ms) = _
    rw [hf.read_of_agree s ms hs hagf, hx.read_of_agree s ms hs hagx]
    rfl
  keys_write s n hn := by
    change n ∈ Table.keys (f.write s ++ x.write s) at hn
    rw [Table.keys, List.map_append, List.mem_append] at hn
    change n ∈ f.names ++ x.names
    rcases hn with hn | hn
    · exact List.mem_append_left _ (hf.keys_write s n hn)
    · exact List.mem_append_right _ (hx.keys_write s n hn)

/-- A member that is always written. -/
theorem find?_of_written {ms : Json.Members} {camel snake : String} {v : Json}
    (h : Table.get? ms camel = some v) : find? ms camel snake = some (camel, v) := by
  rw [find?, h]

theorem required_lawful {c : Codec α} {Good : α → Prop} (hc : c.Lawful Good)
    (camel snake : String) (get : σ → α) :
    (required camel snake c get).Lawful get fun s => Good (get s) where
  read_of_agree s ms hs hag := by
    have hget : Table.get? ms camel = some (c.write (get s)) := by
      rw [hag camel List.mem_cons_self]
      simp [required, Table.get?_cons]
    simp only [required, find?_of_written hget, hc.read_write _ hs, Checked.below_valid]
  keys_write s n hn := by
    rw [List.mem_singleton.mp hn]
    exact List.mem_cons_self

theorem defaulted_lawful {c : Codec α} {Good : α → Prop} (hc : c.Lawful Good)
    (camel snake : String) (default : α) (get : σ → α) :
    (defaulted camel snake c default get).Lawful get fun s => Good (get s) where
  read_of_agree s ms hs hag := by
    have hget : Table.get? ms camel = some (c.write (get s)) := by
      rw [hag camel List.mem_cons_self]
      simp [defaulted, Table.get?_cons]
    simp only [defaulted, find?_of_written hget, hc.read_write _ hs, Checked.below_valid]
  keys_write s n hn := by
    rw [List.mem_singleton.mp hn]
    exact List.mem_cons_self

/-- A member without a value is left out, and so read as one without a value. -/
theorem optionalBy_lawful {c : Codec (Option α)} {Good : α → Prop}
    (hc : ∀ a, Good a → c.read (c.write (some a)) = .valid (some a)) (camel snake : String)
    (get : σ → Option α) :
    (optionalBy camel snake c get).Lawful get fun s => ∀ a ∈ get s, Good a where
  read_of_agree s ms hs hag := by
    have hcamel := hag camel List.mem_cons_self
    have hsnake := hag snake (List.mem_cons_of_mem _ List.mem_cons_self)
    cases hg : get s with
    | none =>
      simp only [optionalBy, hg, Table.get?_nil] at hcamel hsnake
      simp [optionalBy, find?, hcamel, hsnake]
    | some a =>
      have hget : Table.get? ms camel = some (c.write (some a)) := by
        rw [hcamel]
        simp [optionalBy, hg, Table.get?_cons]
      simp only [optionalBy, find?_of_written hget, hc a (hs a hg), Checked.below_valid]
  keys_write s n hn := by
    cases hg : get s with
    | none =>
      simp only [optionalBy, hg] at hn
      exact absurd hn List.not_mem_nil
    | some a =>
      simp only [optionalBy, hg] at hn
      rw [List.mem_singleton.mp hn]
      exact List.mem_cons_self

theorem optional_lawful {c : Codec α} {Good : α → Prop} (hc : c.Lawful Good)
    (camel snake : String) (get : σ → Option α) :
    (optional camel snake c get).Lawful get fun s => ∀ a ∈ get s, Good a :=
  optionalBy_lawful hc.read_nullable camel snake get

/-- A law for fewer values. -/
theorem Lawful.mono {b : Block σ α} {get : σ → α} {Good Better : σ → Prop}
    (h : b.Lawful get Good) (hsub : ∀ s, Better s → Good s) : b.Lawful get Better where
  read_of_agree s ms hs := h.read_of_agree s ms (hsub s hs)
  keys_write := h.keys_write

/-- A lawful block of a structure makes a lawful codec. -/
theorem Lawful.codec {b : Block α α} {Good : α → Prop} (h : b.Lawful (fun a => a) Good)
    (name : String) : (b.codec name).Lawful Good where
  read_write a ha := h.read_write a ha
  write_ne_null _ := Json.noConfusion

/-! ## 3. What is written -/

@[simp] theorem write_pure (a : α) (s : σ) : (pure a : Block σ α).write s = [] := rfl

@[simp] theorem write_map (f : α → β) (b : Block σ α) (s : σ) : (f <$> b).write s = b.write s := rfl

@[simp] theorem write_seq (f : Block σ (α → β)) (b : Block σ α) (s : σ) :
    (f <*> b).write s = f.write s ++ b.write s := rfl

@[simp] theorem write_fixed (name : String) (c : Codec α) (get : σ → α) (s : σ) :
    (fixed name c get).write s = [(name, c.write (get s))] := rfl

@[simp] theorem write_preset (name : String) (c : Codec α) (default : α) (get : σ → α) (s : σ) :
    (preset name c default get).write s = [(name, c.write (get s))] := rfl

@[simp] theorem write_codec (name : String) (b : Block α α) (a : α) :
    (b.codec name).write a = .object (b.write a) := rfl

end Block

end Steward
