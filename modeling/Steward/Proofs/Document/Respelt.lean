import Steward.Proofs.Document.Plain

/-!
# Spellings of a document

One value can be spelt in more than one way: a member under its name in camel case or in snake case,
the members in any order, an optional member as null or not at all, a duration in units or in
seconds.  Documents that differ in nothing else, at any level outside of free-form settings, are
spellings of one another (`Codec.Respelt`), and are read as the same value
(`Codec.Respelt.read_iff`).
-/

namespace Steward

variable {α β σ : Type}

/-! ## 1. Spellings -/

/-- A member is not there, or null. -/
def Block.Unset (ms : Json.Members) (camel snake : String) : Prop :=
  Block.find? ms camel snake = none ∨ ∃ name, Block.find? ms camel snake = some (name, .null)

mutual

/-- The documents are spellings of one value of the codec. -/
inductive Codec.Respelt : {α : Type} → Codec α → Json → Json → Prop
  | refl {α : Type} (c : Codec α) (v : Json) : Codec.Respelt c v v
  | symm {α : Type} {c : Codec α} {v w : Json} : Codec.Respelt c v w → Codec.Respelt c w v
  | trans {α : Type} {c : Codec α} {u v w : Json} :
      Codec.Respelt c u v → Codec.Respelt c v w → Codec.Respelt c u w
  /-- A text that gives a duration, and its seconds. -/
  | duration {s : String} {n : Nat} :
      Duration.ofText s = .ok n → Codec.Respelt .duration (.string s) (.int n)
  | list {α : Type} {c : Codec α} {vs ws : List Json} :
      Codec.ItemsRespelt c vs ws → Codec.Respelt c.list (.array vs) (.array ws)
  | nullable {α : Type} {c : Codec α} {v w : Json} :
      v ≠ .null → w ≠ .null → Codec.Respelt c v w → Codec.Respelt c.nullable v w
  | block {α : Type} {b : Block α α} (name : String) {ms ns : Json.Members} :
      Block.Respelt b ms ns → Codec.Respelt (b.codec name) (.object ms) (.object ns)

/-- Item by item. -/
inductive Codec.ItemsRespelt : {α : Type} → Codec α → List Json → List Json → Prop
  | nil {α : Type} (c : Codec α) : Codec.ItemsRespelt c [] []
  | cons {α : Type} {c : Codec α} {v w : Json} {vs ws : List Json} :
      Codec.Respelt c v w → Codec.ItemsRespelt c vs ws → Codec.ItemsRespelt c (v :: vs) (w :: ws)

/-- Every member that the block looks up is found in both, under either of its names, or may be left
out and is not set. -/
inductive Block.Respelt : {σ α : Type} → Block σ α → Json.Members → Json.Members → Prop
  | map {σ α β : Type} {f : α → β} {b : Block σ α} {ms ns : Json.Members} :
      Block.Respelt b ms ns → Block.Respelt (f <$> b) ms ns
  | seq {σ α β : Type} {f : Block σ (α → β)} {x : Block σ α} {ms ns : Json.Members} :
      Block.Respelt f ms ns → Block.Respelt x ms ns → Block.Respelt (f <*> x) ms ns
  | required {σ α : Type} {camel snake n n' : String} {c : Codec α} {get : σ → α}
      {ms ns : Json.Members} {v w : Json} :
      Block.find? ms camel snake = some (n, v) → Block.find? ns camel snake = some (n', w) →
        Codec.Respelt c v w → Block.Respelt (Block.required camel snake c get) ms ns
  | defaulted {σ α : Type} {camel snake n n' : String} {c : Codec α} {default : α} {get : σ → α}
      {ms ns : Json.Members} {v w : Json} :
      Block.find? ms camel snake = some (n, v) → Block.find? ns camel snake = some (n', w) →
        Codec.Respelt c v w → Block.Respelt (Block.defaulted camel snake c default get) ms ns
  | absent {σ α : Type} {camel snake : String} {c : Codec α} {default : α} {get : σ → α}
      {ms ns : Json.Members} :
      Block.find? ms camel snake = none → Block.find? ns camel snake = none →
        Block.Respelt (Block.defaulted camel snake c default get) ms ns
  | optional {σ α : Type} {camel snake n n' : String} {c : Codec (Option α)} {get : σ → Option α}
      {ms ns : Json.Members} {v w : Json} :
      Block.find? ms camel snake = some (n, v) → Block.find? ns camel snake = some (n', w) →
        Codec.Respelt c v w → Block.Respelt (Block.optionalBy camel snake c get) ms ns
  | unset {σ α : Type} {camel snake : String} {c : Codec (Option α)} {get : σ → Option α}
      {ms ns : Json.Members} :
      c.read .null = .valid none → Block.Unset ms camel snake → Block.Unset ns camel snake →
        Block.Respelt (Block.optionalBy camel snake c get) ms ns

end

/-! ## 2. Spellings are read alike -/

/-- The seconds of a duration are the same duration. -/
theorem Codec.read_seconds {s : String} {n : Nat} (h : Duration.ofText s = .ok n) :
    duration.read (.string s) = duration.read (.int n) := by
  have hs : s ≠ "" := by
    rintro rfl
    have hempty : Duration.ofText "" = .error (.unreadable (.string "")) := by decide
    rw [hempty] at h
    cases h
  have hn : ¬ ((n : Int) < 0) := Int.not_lt.mpr (Int.natCast_nonneg n)
  simp [duration, Duration.ofJson, Duration.ofSeconds, hs, h, hn, Except.map]

theorem Block.read_unset {c : Codec (Option α)} (hnull : c.read .null = .valid none)
    {ms : Json.Members} {camel snake : String} (h : Unset ms camel snake) {get : σ → Option α} :
    (optionalBy camel snake c get).read ms = .valid none := by
  rcases h with h | ⟨name, h⟩
  · simp only [optionalBy, h]
  · simp only [optionalBy, h, hnull, Checked.below_valid]

mutual

/-- **Spellings** are read as the same value. -/
theorem Codec.Respelt.read_iff : ∀ {α : Type} {c : Codec α} {v w : Json}, c.Respelt v w →
    ∀ a, c.read v = .valid a ↔ c.read w = .valid a
  | _, _, _, _, .refl _ _, _ => Iff.rfl
  | _, _, _, _, .symm h, a => (h.read_iff a).symm
  | _, _, _, _, .trans h k, a => (h.read_iff a).trans (k.read_iff a)
  | _, _, _, _, .duration h, a => by
    rw [Codec.read_seconds h]
  | _, _, _, _, .list h, a => h.read_iff 0 a
  | _, _, _, _, .nullable hv hw h, a => by
    rw [Codec.read_nullable _ hv, Codec.read_nullable _ hw, Checked.map_eq_valid_iff,
      Checked.map_eq_valid_iff]
    exact exists_congr fun b => and_congr_left fun _ => h.read_iff b
  | _, _, _, _, .block _ h, a => h.read_iff a

theorem Codec.ItemsRespelt.read_iff : ∀ {α : Type} {c : Codec α} {vs ws : List Json},
    c.ItemsRespelt vs ws → ∀ (index : Nat) (items : List α),
      Codec.readItems c.read index vs = .valid items ↔
        Codec.readItems c.read index ws = .valid items
  | _, _, _, _, .nil _, _, _ => Iff.rfl
  | _, _, _, _, .cons h k, index, items => by
    rw [Codec.readItems, Codec.readItems, Checked.ap_eq_valid_iff, Checked.ap_eq_valid_iff]
    refine exists₂_congr fun g rest => and_congr ?_ (and_congr_left fun _ => k.read_iff _ rest)
    rw [Checked.map_eq_valid_iff, Checked.map_eq_valid_iff]
    refine exists_congr fun b => and_congr_left fun _ => ?_
    rw [Checked.below_eq_valid_iff, Checked.below_eq_valid_iff, h.read_iff b]

theorem Block.Respelt.read_iff : ∀ {σ α : Type} {b : Block σ α} {ms ns : Json.Members},
    b.Respelt ms ns → ∀ a, b.read ms = .valid a ↔ b.read ns = .valid a
  | _, _, _, _, _, .map h, b => by
    rw [Block.read_map_iff, Block.read_map_iff]
    exact exists_congr fun a => and_congr_left fun _ => h.read_iff a
  | _, _, _, _, _, .seq h k, b => by
    rw [Block.read_seq_iff, Block.read_seq_iff]
    exact exists₂_congr fun g a => and_congr (h.read_iff g) (and_congr_left fun _ => k.read_iff a)
  | _, _, _, _, _, .required hms hns h, a => by
    simp only [Block.required, hms, hns, Checked.below_eq_valid_iff, h.read_iff a]
  | _, _, _, _, _, .defaulted hms hns h, a => by
    simp only [Block.defaulted, hms, hns, Checked.below_eq_valid_iff, h.read_iff a]
  | _, _, _, _, _, .absent hms hns, a => by
    simp only [Block.defaulted, hms, hns]
  | _, _, _, _, _, .optional hms hns h, a => by
    simp only [Block.optionalBy, hms, hns, Checked.below_eq_valid_iff, h.read_iff a]
  | _, _, _, _, _, .unset hnull hms hns, a => by
    rw [Block.read_unset hnull hms, Block.read_unset hnull hns]

end

end Steward
