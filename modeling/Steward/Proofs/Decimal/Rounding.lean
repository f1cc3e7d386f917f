import Mathlib.Algebra.Order.Field.Power
import Mathlib.Data.Rat.Cast.Order
import Mathlib.Tactic.FieldSimp
import Mathlib.Tactic.Linarith
import Mathlib.Tactic.NormNum
import Mathlib.Tactic.Positivity
import Mathlib.Tactic.Ring
import Steward.Decimal.Shortest
import Steward.Proofs.Text.Numeral

/-!
# What rounds to a number

A finite number other than zero is what every quotient rounds to that lies between the middles to
its neighbours; the middles themselves are among them exactly when its significand is even.  Below
a power of two the neighbour is nearer: there the exponent that rounding finds is one less than the
number's own, and the rounding carries into it.
-/

namespace Steward.Binary64

/-! ## 1. Between two ends -/

/-- Between two ends, which are meant too if they are closed. -/
structure Between (closed : Prop) (low high q : ℚ) : Prop where
  low_le : low ≤ q
  le_high : q ≤ high
  low_lt : ¬closed → low < q
  lt_high : ¬closed → q < high

/-- What lies between two ends lies between them in every unit. -/
theorem Between.mul {closed : Prop} {low high q : ℚ} (h : Between closed low high q) {u : ℚ}
    (hu : 0 < u) : Between closed (low * u) (high * u) (q * u) :=
  ⟨mul_le_mul_of_nonneg_right h.low_le hu.le, mul_le_mul_of_nonneg_right h.le_high hu.le,
    fun hc => mul_lt_mul_of_pos_right (h.low_lt hc) hu,
    fun hc => mul_lt_mul_of_pos_right (h.lt_high hc) hu⟩

/-- The ends may be moved apart. -/
theorem Between.mono {closed closed' : Prop} {low low' high high' q : ℚ}
    (h : Between closed low high q) (hclosed : ¬closed' → ¬closed) (hlow : low' ≤ low)
    (hhigh : high ≤ high') : Between closed' low' high' q :=
  ⟨hlow.trans h.low_le, h.le_high.trans hhigh, fun hc => hlow.trans_lt (h.low_lt (hclosed hc)),
    fun hc => (h.lt_high (hclosed hc)).trans_le hhigh⟩

/-! ## 2. The nearest whole number -/

/-- In whole numbers. -/
theorem nearestEven_of_le {num den s : Nat} (hlow : 2 * (s * den) ≤ 2 * num + den)
    (hhigh : 2 * num ≤ 2 * (s * den) + den)
    (hodd : s % 2 ≠ 0 → 2 * (s * den) < 2 * num + den ∧ 2 * num < 2 * (s * den) + den)
    (hden : 0 < den) : nearestEven num den = s := by
  have hdiv := Nat.div_add_mod num den
  have hmod := Nat.mod_lt num hden
  rw [nearestEven]
  generalize num / den = q at hdiv ⊢
  generalize num % den = r at hdiv hmod ⊢
  have hle : q ≤ s := by
    by_contra hlt
    have : den * (s + 1) ≤ den * q := Nat.mul_le_mul_left den (Nat.lt_of_not_le hlt)
    rw [Nat.mul_add, Nat.mul_comm den s] at this
    omega
  have hge : s ≤ q + 1 := by
    by_contra hlt
    have : (q + 2) * den ≤ s * den := Nat.mul_le_mul_right den (Nat.lt_of_not_le hlt)
    rw [Nat.add_mul, Nat.mul_comm q den] at this
    omega
  simp only [Bool.or_eq_true, Bool.and_eq_true, decide_eq_true_eq, beq_iff_eq]
  rcases Nat.le_iff_lt_or_eq.mp hle with hlt | rfl
  · obtain rfl : s = q + 1 := by omega
    rw [Nat.add_mul, Nat.mul_comm q den] at hlow hodd
    rw [if_pos]
    omega
  · rw [Nat.mul_comm q den] at hhigh hodd
    rw [if_neg]
    omega

theorem nearestEven_eq {num den s : Nat} (hden : 0 < den)
    (h : Between (s % 2 = 0) (s - 1 / 2) (s + 1 / 2) (num / den)) : nearestEven num den = s := by
  have hpos : (0 : ℚ) < den := by exact_mod_cast hden
  have hnum : (num / den * den : ℚ) = num := div_mul_cancel₀ _ hpos.ne'
  have hb := h.mul hpos
  rw [hnum] at hb
  have hlow : (2 * (s * den) : ℚ) ≤ 2 * num + den := by linarith [hb.low_le]
  have hhigh : (2 * num : ℚ) ≤ 2 * (s * den) + den := by linarith [hb.le_high]
  refine nearestEven_of_le (by exact_mod_cast hlow) (by exact_mod_cast hhigh) (fun hodd => ?_) hden
  have hlow' : (2 * (s * den) : ℚ) < 2 * num + den := by linarith [hb.low_lt hodd]
  have hhigh' : (2 * num : ℚ) < 2 * (s * den) + den := by linarith [hb.lt_high hodd]
  exact ⟨by exact_mod_cast hlow', by exact_mod_cast hhigh'⟩

/-- A power of two as the whole number that it is. -/
theorem two_zpow_of_nonneg {e : Int} (h : 0 ≤ e) : (2 : ℚ) ^ e = (Nat.pow 2 e.toNat : Nat) := by
  conv_lhs => rw [← Int.toNat_of_nonneg h]
  rw [zpow_natCast, Nat.pow_eq, Nat.cast_pow, Nat.cast_ofNat]

/-- A quotient in units of a power of two is rounded to the nearest number of them. -/
theorem inUnits_eq {num den s : Nat} {e : Int} (hden : 0 < den)
    (h : Between (s % 2 = 0) ((s - 1 / 2) * 2 ^ e) ((s + 1 / 2) * 2 ^ e) (num / den)) :
    inUnits num den e = s := by
  have hunit : (0 : ℚ) < 2 ^ (-e) := by positivity
  have hcancel : (2 : ℚ) ^ e * 2 ^ (-e) = 1 := by
    rw [← zpow_add₀ (by norm_num), add_neg_cancel, zpow_zero]
  have hb := h.mul hunit
  rw [mul_assoc, hcancel, mul_one, mul_assoc, hcancel, mul_one] at hb
  have hpow (n : Nat) : 0 < Nat.pow 2 n := Nat.two_pow_pos n
  rw [inUnits]
  split
  · next he =>
    refine nearestEven_eq (Nat.mul_pos hden (hpow _)) ?_
    rw [zpow_neg, two_zpow_of_nonneg he] at hb
    rwa [Nat.cast_mul, div_mul_eq_div_div, div_eq_mul_inv (num / den : ℚ)]
  · next he =>
    refine nearestEven_eq hden ?_
    rw [two_zpow_of_nonneg (by omega)] at hb
    rwa [Nat.cast_mul, mul_div_right_comm]

/-! ## 3. The exponent -/

/-- The exponent that leaves 53 bits before the point. -/
def binade (num den : Nat) : Int :=
  let rough : Int := (Nat.log2 num : Int) - Nat.log2 den - 52
  let scaled (e : Int) : Bool :=
    if 0 ≤ e then num < den * Nat.pow 2 52 * Nat.pow 2 e.toNat
    else num * Nat.pow 2 (-e).toNat < den * Nat.pow 2 52
  if scaled rough then rough - 1 else rough

/-- A quotient is below a number of units exactly if its terms say so. -/
theorem div_lt_iff_scaled (num : Nat) {den : Nat} (hden : 0 < den) (e : Int) :
    ((num : ℚ) / den < 2 ^ (52 + e)) ↔
      if 0 ≤ e then num < den * Nat.pow 2 52 * Nat.pow 2 e.toNat
      else num * Nat.pow 2 (-e).toNat < den * Nat.pow 2 52 := by
  have hpos : (0 : ℚ) < den := by exact_mod_cast hden
  have hhead : (2 : ℚ) ^ (52 : Int) = (Nat.pow 2 52 : Nat) := two_zpow_of_nonneg (by decide)
  rw [div_lt_iff₀ hpos, zpow_add₀ (by norm_num), hhead]
  split
  · next he =>
    rw [two_zpow_of_nonneg he, ← Nat.cast_mul, ← Nat.cast_mul, Nat.cast_lt, Nat.mul_comm _ den,
      Nat.mul_assoc]
  · next he =>
    have hinv : (2 : ℚ) ^ e = ((Nat.pow 2 (-e).toNat : Nat) : ℚ)⁻¹ := by
      rw [← two_zpow_of_nonneg (by omega), zpow_neg, inv_inv]
    have hpow : (0 : ℚ) < (Nat.pow 2 (-e).toNat : Nat) := by exact_mod_cast Nat.two_pow_pos _
    rw [hinv, mul_right_comm, ← div_eq_mul_inv, lt_div_iff₀ hpow, ← Nat.cast_mul, ← Nat.cast_mul,
      Nat.cast_lt, Nat.mul_comm (Nat.pow 2 52)]

/-- The two powers of two between which a quotient lies, by the logarithms of its terms. -/
theorem log2_bounds {num den : Nat} (hnum : num ≠ 0) (hden : den ≠ 0) :
    (2 : ℚ) ^ ((Nat.log2 num : Int) - Nat.log2 den - 1) ≤ num / den ∧
      (num / den : ℚ) < 2 ^ ((Nat.log2 num : Int) - Nat.log2 den + 1) := by
  have hpos : (0 : ℚ) < den := by exact_mod_cast Nat.pos_of_ne_zero hden
  have hnum_le : (2 : ℚ) ^ (Nat.log2 num : Int) ≤ num := by
    rw [zpow_natCast]
    exact_mod_cast Nat.log2_self_le hnum
  have hnum_lt : (num : ℚ) < 2 ^ ((Nat.log2 num : Int) + 1) := by
    have : num < 2 ^ (Nat.log2 num + 1) := Nat.lt_log2_self
    exact_mod_cast this
  have hden_le : (2 : ℚ) ^ (Nat.log2 den : Int) ≤ den := by
    rw [zpow_natCast]
    exact_mod_cast Nat.log2_self_le hden
  have hden_lt : (den : ℚ) < 2 ^ ((Nat.log2 den : Int) + 1) := by
    have : den < 2 ^ (Nat.log2 den + 1) := Nat.lt_log2_self
    exact_mod_cast this
  constructor
  · rw [le_div_iff₀ hpos]
    calc (2 : ℚ) ^ ((Nat.log2 num : Int) - Nat.log2 den - 1) * den
        ≤ 2 ^ ((Nat.log2 num : Int) - Nat.log2 den - 1) * 2 ^ ((Nat.log2 den : Int) + 1) :=
          mul_le_mul_of_nonneg_left hden_lt.le (by positivity)
      _ = 2 ^ (Nat.log2 num : Int) := by
          rw [← zpow_add₀ (by norm_num)]
          congr 1
          omega
      _ ≤ num := hnum_le
  · rw [div_lt_iff₀ hpos]
    calc (num : ℚ) < 2 ^ ((Nat.log2 num : Int) + 1) := hnum_lt
      _ = 2 ^ ((Nat.log2 num : Int) - Nat.log2 den + 1) * 2 ^ (Nat.log2 den : Int) := by
          rw [← zpow_add₀ (by norm_num)]
          congr 1
          omega
      _ ≤ 2 ^ ((Nat.log2 num : Int) - Nat.log2 den + 1) * den :=
          mul_le_mul_of_nonneg_left hden_le (by positivity)

theorem binade_spec {num den : Nat} (hnum : num ≠ 0) (hden : den ≠ 0) :
    (2 : ℚ) ^ (52 + binade num den) ≤ num / den ∧ (num / den : ℚ) < 2 ^ (53 + binade num den) := by
  obtain ⟨hlow, hhigh⟩ := log2_bounds hnum hden
  have hscaled := div_lt_iff_scaled num (Nat.pos_of_ne_zero hden)
    ((Nat.log2 num : Int) - Nat.log2 den - 52)
  rw [binade]
  generalize (Nat.log2 num : Int) - Nat.log2 den = d at hlow hhigh hscaled ⊢
  have htest : ((if 0 ≤ d - 52 then decide (num < den * Nat.pow 2 52 * Nat.pow 2 (d - 52).toNat)
      else decide (num * Nat.pow 2 (-(d - 52)).toNat < den * Nat.pow 2 52)) = true) ↔
        (num / den : ℚ) < 2 ^ (52 + (d - 52)) := by
    rw [hscaled]
    split <;> exact decide_eq_true_iff
  dsimp only
  by_cases h : (num / den : ℚ) < 2 ^ (52 + (d - 52))
  · have hfirst : (52 : Int) + (d - 52 - 1) = d - 1 := by omega
    have hsecond : (53 : Int) + (d - 52 - 1) = 52 + (d - 52) := by omega
    rw [if_pos (htest.mpr h), hfirst, hsecond]
    exact ⟨hlow, h⟩
  · have hsecond : (53 : Int) + (d - 52) = d + 1 := by omega
    rw [if_neg (mt htest.mp h), hsecond]
    exact ⟨not_lt.mp h, hhigh⟩

/-! ## 4. Patterns -/

/-- The pattern of a number without its sign. -/
def pattern (x : Binary64) : Nat := x.biasedExponent * 2 ^ 52 + x.fraction

theorem biasedExponent_lt (x : Binary64) : x.biasedExponent < 2048 := Nat.mod_lt _ (by decide)

theorem fraction_lt (x : Binary64) : x.fraction < 2 ^ 52 := Nat.mod_lt _ (by decide)

theorem withSign_pattern (x : Binary64) : withSign x.negative x.pattern = x := by
  have hbits : x.bits.toNat < 2 ^ 64 := x.bits.toNat_lt
  have hparts : (if x.negative then Nat.pow 2 63 + x.pattern else x.pattern) = x.bits.toNat := by
    rw [pattern, biasedExponent, fraction, negative]
    simp only [Nat.pow_eq, decide_eq_true_eq]
    split <;> omega
  rw [withSign, hparts, UInt64.ofNat_toNat]

/-- The parts of a finite number: its exponent is not below the least one, its significand has no
more than 53 bits, and no fewer where the exponent is not the least. -/
theorem significand_cases {x : Binary64} :
    x.biasedExponent ≤ 1 ∧ x.exponent = -1074 ∧ x.significand < 2 ^ 53 ∧
        x.pattern = x.significand ∨
      1 < x.biasedExponent ∧ x.exponent = x.biasedExponent - 1075 ∧
        x.significand = 2 ^ 52 + x.fraction ∧
        x.pattern = (x.exponent + 1074).toNat * 2 ^ 52 + x.significand := by
  have hfraction := x.fraction_lt
  rw [exponent, significand, pattern]
  simp only [Nat.pow_eq]
  rcases Nat.lt_or_ge 1 x.biasedExponent with h | h
  · refine .inr ⟨h, ?_, ?_, ?_⟩
    · omega
    · rw [if_neg (by omega)]
    · rw [if_neg (by omega)]
      omega
  · refine .inl ⟨h, ?_, ?_, ?_⟩
    · omega
    · split <;> omega
    · split <;> omega

/-! ## 5. Rounding to a number -/

/-- A quotient rounds to a positive number: it lies between the middles to the neighbours. -/
def Covers (x : Binary64) (q : ℚ) : Prop :=
  Between (x.significand % 2 = 0) (x.quarters.1 * 2 ^ (x.exponent - 2))
    (x.quarters.2.2 * 2 ^ (x.exponent - 2)) q

/-- A power of two in quarters of the last place of a number. -/
theorem two_zpow_quarters (k : Nat) (e : Int) : (2 : ℚ) ^ (k + e) = 2 ^ (k + 2) * 2 ^ (e - 2) := by
  have hsum : (k + e : Int) = (k + 2 : Nat) + (e - 2) := by omega
  rw [hsum, zpow_add₀ (by norm_num), zpow_natCast]

/-- The middles in quarters: half a place to either side, or less below. -/
theorem quarters_bounds (x : Binary64) :
    (4 * x.significand - 2 : ℚ) ≤ x.quarters.1 ∧ (x.quarters.2.2 : ℚ) = 4 * x.significand + 2 := by
  constructor
  · rw [quarters]
    dsimp only
    split
    · have : 4 * x.significand ≤ 4 * x.significand - 1 + 2 := by omega
      have hcast : (4 * x.significand : ℚ) ≤ (4 * x.significand - 1 : Nat) + 2 := by
        exact_mod_cast this
      linarith
    · have : 4 * x.significand ≤ 4 * x.significand - 2 + 2 := by omega
      have hcast : (4 * x.significand : ℚ) ≤ (4 * x.significand - 2 : Nat) + 2 := by
        exact_mod_cast this
      linarith
  · rw [quarters]
    push_cast
    ring

/-- In units of its own last place, what rounds to a number is rounded to its significand. -/
theorem Covers.inUnits_eq {x : Binary64} {num den : Nat} (h : x.Covers (num / den))
    (hden : 0 < den) : inUnits num den x.exponent = x.significand := by
  obtain ⟨hlow, hhigh⟩ := x.quarters_bounds
  have hunit : (2 : ℚ) ^ x.exponent = 4 * 2 ^ (x.exponent - 2) := by
    have := two_zpow_quarters 0 x.exponent
    rw [Nat.cast_zero, zero_add] at this
    rw [this]
    norm_num
  have hpos : (0 : ℚ) < 2 ^ (x.exponent - 2) := by positivity
  refine Binary64.inUnits_eq hden (h.mono id ?_ ?_)
  · calc (x.significand - 1 / 2 : ℚ) * 2 ^ x.exponent
        = (4 * x.significand - 2) * 2 ^ (x.exponent - 2) := by rw [hunit]; ring
      _ ≤ x.quarters.1 * 2 ^ (x.exponent - 2) := mul_le_mul_of_nonneg_right hlow hpos.le
  · rw [hunit, hhigh]
    exact le_of_eq (by ring)

/-- What rounds to a number has no more than 53 bits before its last place. -/
theorem Covers.lt {x : Binary64} {q : ℚ} (h : x.Covers q) : q < 2 ^ (53 + x.exponent) := by
  have hsize : x.significand < 2 ^ 53 := by
    have := x.fraction_lt
    rcases x.significand_cases with ⟨-, -, hlt, -⟩ | ⟨-, -, heq, -⟩ <;> omega
  have hlt : (4 * x.significand + 2 : ℚ) < 2 ^ 55 := by
    have : 4 * x.significand + 2 < 2 ^ 55 := by omega
    exact_mod_cast this
  calc q ≤ x.quarters.2.2 * 2 ^ (x.exponent - 2) := h.le_high
    _ = (4 * x.significand + 2) * 2 ^ (x.exponent - 2) := by rw [x.quarters_bounds.2]
    _ < 2 ^ 55 * 2 ^ (x.exponent - 2) := mul_lt_mul_of_pos_right hlt (by positivity)
    _ = 2 ^ (53 + x.exponent) := (two_zpow_quarters 53 x.exponent).symm

/-- The exponent that rounding finds is not above that of the number. -/
theorem Covers.binade_le {x : Binary64} {num den : Nat} (h : x.Covers (num / den)) (hnum : num ≠ 0)
    (hden : den ≠ 0) : binade num den ≤ x.exponent := by
  have hpow := (binade_spec hnum hden).1.trans_lt h.lt
  have := (zpow_lt_zpow_iff_right₀ (by norm_num : (1 : ℚ) < 2)).mp hpow
  omega

/-- A number that covers a quotient below the power of two that it begins with is that power. -/
theorem Covers.below_power {x : Binary64} {q : ℚ} (h : x.Covers q) (hb : 1 < x.biasedExponent)
    (hs : x.significand = 2 ^ 52 + x.fraction) (hq : q < 2 ^ (52 + x.exponent)) :
    x.fraction = 0 ∧ ((2 : ℚ) ^ 54 - 1) * 2 ^ (x.exponent - 2) ≤ q := by
  have hpos : (0 : ℚ) < 2 ^ (x.exponent - 2) := by positivity
  have hlt : (x.quarters.1 : ℚ) < 2 ^ 54 := by
    have := (h.low_le.trans_lt hq).trans_eq (two_zpow_quarters 52 _)
    exact lt_of_mul_lt_mul_right this hpos.le
  have hlt' : x.quarters.1 < 2 ^ 54 := by exact_mod_cast hlt
  have hfraction : x.fraction = 0 := by
    rw [quarters, hs] at hlt'
    dsimp only at hlt'
    split at hlt' <;> omega
  have hquarters : x.quarters.1 = 2 ^ 54 - 1 := by
    rw [quarters, if_pos ⟨hfraction, hb⟩, hs, hfraction]
    rfl
  have hlow := h.low_le
  rw [hquarters, Nat.cast_sub (by decide), Nat.cast_pow, Nat.cast_one, Nat.cast_ofNat] at hlow
  exact ⟨hfraction, hlow⟩

/-- Below a power of two, rounding finds the exponent below and carries. -/
theorem Covers.carry {x : Binary64} {num den : Nat} (h : x.Covers (num / den)) (hnum : num ≠ 0)
    (hden : den ≠ 0) (hb : 1 < x.biasedExponent) (hs : x.significand = 2 ^ 52 + x.fraction)
    (hq : (num / den : ℚ) < 2 ^ (52 + x.exponent)) :
    x.fraction = 0 ∧ binade num den = x.exponent - 1 ∧
      inUnits num den (x.exponent - 1) = 2 ^ 53 := by
  obtain ⟨hfraction, hlow⟩ := h.below_power hb hs hq
  have hpos : (0 : ℚ) < 2 ^ (x.exponent - 2) := by positivity
  obtain ⟨hspec, hspec'⟩ := binade_spec hnum hden
  refine ⟨hfraction, ?_, ?_⟩
  · have habove : (2 : ℚ) ^ (51 + x.exponent) < 2 ^ (53 + binade num den) := by
      calc (2 : ℚ) ^ (51 + x.exponent) = 2 ^ 53 * 2 ^ (x.exponent - 2) := two_zpow_quarters 51 _
        _ ≤ (2 ^ 54 - 1) * 2 ^ (x.exponent - 2) :=
            mul_le_mul_of_nonneg_right (by norm_num) hpos.le
        _ ≤ num / den := hlow
        _ < 2 ^ (53 + binade num den) := hspec'
    have hbelow : (2 : ℚ) ^ (52 + binade num den) < 2 ^ (52 + x.exponent) := hspec.trans_lt hq
    have hone : (1 : ℚ) < 2 := by norm_num
    have := (zpow_lt_zpow_iff_right₀ hone).mp habove
    have := (zpow_lt_zpow_iff_right₀ hone).mp hbelow
    omega
  · have hunit : (2 : ℚ) ^ (x.exponent - 1) = 2 * 2 ^ (x.exponent - 2) := by
      rw [← zpow_one_add₀ (by norm_num)]
      congr 1
      omega
    refine Binary64.inUnits_eq (Nat.pos_of_ne_zero hden) ⟨?_, ?_, nofun, nofun⟩
    · calc ((2 ^ 53 : Nat) - 1 / 2 : ℚ) * 2 ^ (x.exponent - 1)
          = (2 ^ 54 - 1) * 2 ^ (x.exponent - 2) := by rw [hunit]; push_cast; ring
        _ ≤ num / den := hlow
    · calc (num / den : ℚ) ≤ 2 ^ 54 * 2 ^ (x.exponent - 2) :=
            hq.le.trans_eq (two_zpow_quarters 52 _)
        _ ≤ (2 ^ 54 + 1) * 2 ^ (x.exponent - 2) :=
            mul_le_mul_of_nonneg_right (by norm_num) hpos.le
        _ = ((2 ^ 53 : Nat) + 1 / 2 : ℚ) * 2 ^ (x.exponent - 1) := by
            rw [hunit]
            push_cast
            ring

/-- The pattern that rounding arrives at. -/
theorem Covers.pattern_eq {x : Binary64} {num den : Nat} (h : x.Covers (num / den)) (hnum : num ≠ 0)
    (hden : den ≠ 0) :
    (max (binade num den) (-1074) + 1074).toNat * Nat.pow 2 52 +
      inUnits num den (max (binade num den) (-1074)) = x.pattern := by
  have hle := h.binade_le hnum hden
  have hown := h.inUnits_eq (Nat.pos_of_ne_zero hden)
  rw [Nat.pow_eq]
  rcases x.significand_cases with ⟨-, he, -, hp⟩ | ⟨hb, he, hsig, hp⟩
  · have hmax : max (binade num den) (-1074) = x.exponent := by omega
    rw [hmax, hown, hp, he]
    omega
  rcases lt_or_ge (num / den : ℚ) (2 ^ (52 + x.exponent)) with hq | hq
  · obtain ⟨hfraction, hbinade, hcarry⟩ := h.carry hnum hden hb hsig hq
    have hmax : max (binade num den) (-1074) = x.exponent - 1 := by omega
    rw [hmax, hcarry, hp, hsig, hfraction]
    omega
  · have hpow := hq.trans_lt (binade_spec hnum hden).2
    have hlt := (zpow_lt_zpow_iff_right₀ (by norm_num : (1 : ℚ) < 2)).mp hpow
    have hmax : max (binade num den) (-1074) = x.exponent := by omega
    rw [hmax, hown, hp]

/-- **A quotient that lies between the middles is read as the number.** -/
theorem Covers.ofRatio_eq {x : Binary64} {num den : Nat} (h : x.Covers (num / den)) (hnum : num ≠ 0)
    (hden : den ≠ 0) (hx : x.isFinite = true) :
    ofRatio x.negative num den = x := by
  have hfinite : x.pattern < infinityPattern := by
    have := x.biasedExponent_lt
    have := x.fraction_lt
    rw [isFinite, bne_iff_ne] at hx
    rw [pattern, infinityPattern, Nat.pow_eq]
    omega
  have hpattern := h.pattern_eq hnum hden
  rw [ofRatio, if_neg hnum]
  rw [binade] at hpattern
  dsimp only at hpattern ⊢
  rw [hpattern, if_neg (Nat.not_le.mpr hfinite), withSign_pattern]

/-! ## 6. Decimals -/

/-- What rounds to a number other than zero is not too small to be read. -/
theorem Covers.ge {x : Binary64} {q : ℚ} (h : x.Covers q) (hs : x.significand ≠ 0) :
    (2 : ℚ) ^ (-1075 : Int) ≤ q := by
  have hlow : (2 : ℚ) ≤ x.quarters.1 := by
    have hone : (1 : ℚ) ≤ x.significand := by exact_mod_cast Nat.pos_of_ne_zero hs
    linarith [x.quarters_bounds.1]
  have hexponent : (-1074 : Int) ≤ x.exponent := by
    rcases x.significand_cases with ⟨-, he, -⟩ | ⟨hb, he, -⟩ <;> omega
  have hpow : (2 : ℚ) ^ (-1076 : Int) ≤ 2 ^ (x.exponent - 2) :=
    zpow_le_zpow_right₀ (by norm_num) (by omega)
  calc (2 : ℚ) ^ (-1075 : Int) = 2 * 2 ^ (-1076 : Int) := by
        rw [← zpow_one_add₀ (by norm_num)]
        rfl
    _ ≤ x.quarters.1 * 2 ^ (x.exponent - 2) :=
        mul_le_mul hlow hpow (by positivity) (by positivity)
    _ ≤ q := h.low_le

/-- Three places of two make no more than one of ten. -/
theorem two_zpow_le_ten_zpow {m n : Nat} (h : m ≤ 3 * n) :
    (2 : ℚ) ^ (m : Int) ≤ 10 ^ (n : Int) := by
  rw [zpow_natCast, zpow_natCast]
  calc (2 : ℚ) ^ m ≤ 2 ^ (3 * n) := pow_le_pow_right₀ (by norm_num) h
    _ = (2 ^ 3) ^ n := pow_mul _ _ _
    _ ≤ 10 ^ n := pow_le_pow_left₀ (by norm_num) (by norm_num) n

/-- The exponent of a finite number. -/
theorem exponent_le {x : Binary64} (hx : x.isFinite = true) : x.exponent ≤ 971 := by
  have := x.biasedExponent_lt
  rw [isFinite, bne_iff_ne] at hx
  rw [exponent]
  omega

/-- The size of a decimal, of its digits and its exponent. -/
theorem decimal_bounds {digits : Nat} (hdigits : digits ≠ 0) (exponent : Int) :
    (10 : ℚ) ^ ((Nat.toDigits 10 digits).length + exponent - 1) ≤ digits * 10 ^ exponent ∧
      (digits * 10 ^ exponent : ℚ) < 10 ^ ((Nat.toDigits 10 digits).length + exponent) := by
  have hlen : 0 < (Nat.toDigits 10 digits).length := Nat.length_toDigits_pos
  have hleast := Text.pow_length_toDigits_le hdigits
  have hmost := Text.lt_pow_length_toDigits digits
  generalize (Nat.toDigits 10 digits).length = size at hlen hleast hmost ⊢
  have hten : (0 : ℚ) < 10 ^ exponent := by positivity
  constructor
  · have hcast : (size + exponent - 1 : Int) = (size - 1 : Nat) + exponent := by omega
    rw [hcast, zpow_add₀ (by norm_num), zpow_natCast]
    exact mul_le_mul_of_nonneg_right (by exact_mod_cast hleast) hten.le
  · rw [zpow_add₀ (by norm_num), zpow_natCast]
    exact mul_lt_mul_of_pos_right (by exact_mod_cast hmost) hten

/-- The bounds that are tested before a power is computed are far outside of the range. -/
theorem decimal_size {digits : Nat} (hdigits : digits ≠ 0) {exponent : Int}
    (hlow : (2 : ℚ) ^ (-1075 : Int) ≤ digits * 10 ^ exponent)
    (hhigh : (digits * 10 ^ exponent : ℚ) < 2 ^ (1024 : Int)) :
    ¬((Nat.toDigits 10 digits).length + exponent < -400) ∧
      ¬(400 < (Nat.toDigits 10 digits).length + exponent) := by
  obtain ⟨hleast, hmost⟩ := decimal_bounds hdigits exponent
  generalize ((Nat.toDigits 10 digits).length + exponent : Int) = size at hleast hmost ⊢
  constructor
  · intro hlt
    have hbelow : (digits * 10 ^ exponent : ℚ) < 10 ^ (-401 : Int) :=
      hmost.trans_le (zpow_le_zpow_right₀ (by norm_num) (by omega))
    have hfar : (10 : ℚ) ^ (-401 : Int) ≤ 2 ^ (-1075 : Int) := by
      rw [zpow_neg, zpow_neg]
      exact inv_anti₀ (by positivity) (two_zpow_le_ten_zpow (by decide : 1075 ≤ 3 * 401))
    exact absurd (hlow.trans_lt hbelow) (not_lt.mpr hfar)
  · intro hlt
    have habove : (10 : ℚ) ^ (400 : Int) ≤ digits * 10 ^ exponent :=
      (zpow_le_zpow_right₀ (by norm_num) (by omega)).trans hleast
    have hfar : (2 : ℚ) ^ (1024 : Int) ≤ 10 ^ (400 : Int) :=
      two_zpow_le_ten_zpow (by decide : 1024 ≤ 3 * 400)
    exact absurd (habove.trans_lt hhigh) (not_lt.mpr hfar)

/-- **A decimal that lies between the middles is read as the number.** -/
theorem Covers.ofDecimal_eq {x : Binary64} {digits : Nat} {exponent : Int}
    (h : x.Covers (digits * 10 ^ exponent)) (hs : x.significand ≠ 0) (hx : x.isFinite = true) :
    ofDecimal x.negative digits exponent = x := by
  have hlow := h.ge hs
  have hhigh : (digits * 10 ^ exponent : ℚ) < 2 ^ (1024 : Int) :=
    h.lt.trans_le (zpow_le_zpow_right₀ (by norm_num) (by have := exponent_le hx; omega))
  have hdigits : digits ≠ 0 := by
    rintro rfl
    rw [Nat.cast_zero, zero_mul] at hlow
    exact absurd hlow (not_le.mpr (by positivity))
  obtain ⟨hsmall, hlarge⟩ := decimal_size hdigits hlow hhigh
  have hpow (n : Nat) : Nat.pow 10 n ≠ 0 := (Nat.pow_pos (by decide)).ne'
  rw [ofDecimal, if_neg (not_or.mpr ⟨hdigits, hsmall⟩), if_neg hlarge]
  split
  · next he =>
    refine Covers.ofRatio_eq ?_ (Nat.mul_ne_zero hdigits (hpow _)) (by decide) hx
    rw [← Int.toNat_of_nonneg he, zpow_natCast] at h
    rwa [Nat.cast_mul, Nat.pow_eq, Nat.cast_pow, Nat.cast_ofNat, Nat.cast_one, div_one]
  · next he =>
    refine Covers.ofRatio_eq ?_ hdigits (hpow _) hx
    have hinv : (10 : ℚ) ^ exponent = (10 ^ (-exponent).toNat)⁻¹ := by
      rw [← zpow_natCast, Int.toNat_of_nonneg (by omega), zpow_neg, inv_inv]
    rw [hinv] at h
    rwa [Nat.pow_eq, Nat.cast_pow, Nat.cast_ofNat, div_eq_mul_inv]

/-- Zero is read as zero, of either sign. -/
theorem ofDecimal_zero {x : Binary64} (h : x.significand = 0) (exponent : Int) :
    ofDecimal x.negative 0 exponent = x := by
  have hpattern : x.pattern = 0 := by
    rcases x.significand_cases with ⟨-, -, -, hp⟩ | ⟨-, -, hs, -⟩
    · rw [hp, h]
    · omega
  rw [ofDecimal, if_pos (.inl rfl), ← hpattern, withSign_pattern]

end Steward.Binary64
