import Mathlib.Data.List.DropRight
import Steward.Proofs.Decimal.Rounding

/-!
# The shortest digits denote a decimal that reads back

Whatever grid the search stops at, the decimal that it takes there lies between the middles to the
neighbours of the number.  And it does stop: on a grid that is fine enough for the number itself,
the number is the decimal.  Final zeros are left out, which does not change what the digits denote.
-/

namespace Steward.Binary64

/-! ## 1. Digits -/

/-- What digits denote. -/
def Digits.value (d : Digits) : ℚ := Text.numeralValue d.digits * 10 ^ (d.point - d.digits.length)

/-- Digits of a number other than zero, as it is written: no zero comes first. -/
structure Digits.Proper (d : Digits) : Prop where
  ne_nil : d.digits ≠ []
  isDigit : ∀ c ∈ d.digits, c.isDigit = true
  head_ne : d.digits.head? ≠ some '0'

/-! ## 2. Grids -/

/-- A power as a quotient of whole numbers. -/
def powerTerms (b : Nat) (e : Int) : Nat × Nat :=
  if 0 ≤ e then (Nat.pow b e.toNat, 1) else (1, Nat.pow b (-e).toNat)

theorem powerTerms_pos {b : Nat} (hb : 0 < b) (e : Int) :
    0 < (powerTerms b e).1 ∧ 0 < (powerTerms b e).2 := by
  rw [powerTerms]
  split
  · exact ⟨Nat.pow_pos hb, Nat.one_pos⟩
  · exact ⟨Nat.one_pos, Nat.pow_pos hb⟩

theorem powerTerms_value (b : Nat) (e : Int) :
    ((powerTerms b e).1 / (powerTerms b e).2 : ℚ) = (b : ℚ) ^ e := by
  rw [powerTerms]
  split
  · next h =>
    conv_rhs => rw [← Int.toNat_of_nonneg h]
    rw [Nat.cast_one, div_one, zpow_natCast, Nat.pow_eq, Nat.cast_pow]
  · next h =>
    have hneg : e = -((-e).toNat : Int) := by omega
    conv_rhs => rw [hneg]
    rw [Nat.cast_one, one_div, zpow_neg, zpow_natCast, Nat.pow_eq, Nat.cast_pow]

/-- A count of units of `2 ^ e` in units of `10 ^ k`, as the search scales it. -/
def onScale (e k : Int) (q : Nat) : Nat × Nat :=
  tenths (if 0 ≤ e then q * Nat.pow 2 e.toNat else q) (if 0 ≤ e then 1 else Nat.pow 2 (-e).toNat) k

theorem onScale_eq (e k : Int) (q : Nat) :
    onScale e k q = (q * ((powerTerms 2 e).1 * (powerTerms 10 (-k)).1),
      (powerTerms 2 e).2 * (powerTerms 10 (-k)).2) := by
  have htwo : onScale e k q = tenths (q * (powerTerms 2 e).1) (powerTerms 2 e).2 k := by
    rw [onScale, powerTerms]
    split
    · rfl
    · rw [Nat.mul_one]
  have hten (num den : Nat) :
      tenths num den k = (num * (powerTerms 10 (-k)).1, den * (powerTerms 10 (-k)).2) := by
    rw [tenths, powerTerms, neg_neg]
    split
    · next h =>
      split
      · obtain rfl : k = 0 := by omega
        rw [neg_zero, Int.toNat_zero, Nat.pow_eq, Nat.pow_zero, Nat.mul_one, Nat.mul_one]
      · rw [Nat.mul_one]
    · next h => rw [if_pos (by omega), Nat.mul_one]
  rw [htwo, hten, Nat.mul_assoc]

/-- Scaling multiplies by one quotient, whatever the count. -/
theorem exists_onScale (e k : Int) :
    ∃ num den : Nat, 0 < num ∧ 0 < den ∧ (∀ q, onScale e k q = (q * num, den)) ∧
      (num / den * 10 ^ k : ℚ) = 2 ^ e := by
  have htwo := powerTerms_pos (b := 2) (by decide) e
  have hten := powerTerms_pos (b := 10) (by decide) (-k)
  refine ⟨_, _, Nat.mul_pos htwo.1 hten.1, Nat.mul_pos htwo.2 hten.2, onScale_eq e k, ?_⟩
  rw [Nat.cast_mul, Nat.cast_mul, mul_div_mul_comm, powerTerms_value, powerTerms_value,
    Nat.cast_ofNat, Nat.cast_ofNat, mul_assoc, ← zpow_add₀ (by norm_num), neg_add_cancel, zpow_zero,
    mul_one]

/-- On a grid that is fine enough, four units of `2 ^ e` are a whole number. -/
theorem onScale_dvd {e k : Int} (hk : k ≤ 0) (hle : k ≤ e + 2) (q : Nat) :
    (onScale e k (4 * q)).2 ∣ (onScale e k (4 * q)).1 := by
  have hten : powerTerms 10 (-k) = (Nat.pow 10 (-k).toNat, 1) := by
    rw [powerTerms, if_pos (by omega)]
  have hquarters : (powerTerms 2 e).2 ∣ 4 * Nat.pow 2 (-k).toNat := by
    rw [powerTerms]
    split
    · exact Nat.one_dvd _
    · rw [Nat.pow_eq, Nat.pow_eq, (by decide : 4 = 2 ^ 2), ← Nat.pow_add]
      exact Nat.pow_dvd_pow 2 (by omega)
  have hpow : Nat.pow 2 (-k).toNat ∣ Nat.pow 10 (-k).toNat := by
    rw [Nat.pow_eq, Nat.pow_eq, (by decide : 10 = 2 * 5), Nat.mul_pow]
    exact Nat.dvd_mul_right _ _
  rw [onScale_eq, hten, Nat.mul_one]
  have hall : (powerTerms 2 e).2 ∣ 4 * Nat.pow 10 (-k).toNat :=
    hquarters.trans (Nat.mul_dvd_mul_left 4 hpow)
  have hshape : 4 * q * ((powerTerms 2 e).1 * Nat.pow 10 (-k).toNat) =
      4 * Nat.pow 10 (-k).toNat * (q * (powerTerms 2 e).1) := by ring
  rw [hshape]
  exact hall.mul_right _

/-! ## 3. The neighbours on a grid -/

/-- The test of the search: a count of units of `10 ^ k` lies between the middles. -/
def fits (x : Binary64) (k : Int) (c : Nat) : Bool :=
  let den := (onScale (x.exponent - 2) k x.quarters.2.1).2
  let low := (onScale (x.exponent - 2) k x.quarters.1).1
  let high := (onScale (x.exponent - 2) k x.quarters.2.2).1
  if x.significand % 2 == 0 then decide (low ≤ c * den) && decide (c * den ≤ high)
  else decide (low < c * den) && decide (c * den < high)

theorem onGrid?_eq (x : Binary64) (point : Int) (n : Nat) :
    x.onGrid? point n =
      let r := onScale (x.exponent - 2) (point - n) x.quarters.2.1
      match x.fits (point - n) (r.1 / r.2), x.fits (point - n) (r.1 / r.2 + 1) with
      | true, false => some (r.1 / r.2)
      | false, true => some (r.1 / r.2 + 1)
      | true, true => some (nearestEven r.1 r.2)
      | false, false => none := rfl

/-- **The search takes what reads back.** -/
theorem fits_iff (x : Binary64) (k : Int) (c : Nat) :
    x.fits k c = true ↔ x.Covers (c * 10 ^ k) := by
  obtain ⟨num, den, -, hden, hscale, hvalue⟩ := exists_onScale (x.exponent - 2) k
  have hunit : (0 : ℚ) < 10 ^ k / den := by positivity
  have hend (q : Nat) : (q * 2 ^ (x.exponent - 2) : ℚ) = (q * num : Nat) * (10 ^ k / den) := by
    rw [← hvalue, Nat.cast_mul]
    ring
  have hcount : (c * 10 ^ k : ℚ) = (c * den : Nat) * (10 ^ k / den) := by
    rw [Nat.cast_mul]
    field_simp
  have hle (a b : Nat) : (a * (10 ^ k / den) : ℚ) ≤ b * (10 ^ k / den) ↔ a ≤ b := by
    rw [mul_le_mul_iff_left₀ hunit, Nat.cast_le]
  have hlt (a b : Nat) : (a * (10 ^ k / den) : ℚ) < b * (10 ^ k / den) ↔ a < b := by
    rw [mul_lt_mul_iff_left₀ hunit, Nat.cast_lt]
  rw [fits, Covers, hend, hend, hcount, hscale, hscale, hscale]
  constructor
  · intro h
    split at h
    · next heven =>
      rw [beq_iff_eq] at heven
      rw [Bool.and_eq_true, decide_eq_true_iff, decide_eq_true_iff] at h
      exact ⟨(hle _ _).mpr h.1, (hle _ _).mpr h.2, absurd heven, absurd heven⟩
    · rw [Bool.and_eq_true, decide_eq_true_iff, decide_eq_true_iff] at h
      exact ⟨(hle _ _).mpr h.1.le, (hle _ _).mpr h.2.le, fun _ => (hlt _ _).mpr h.1,
        fun _ => (hlt _ _).mpr h.2⟩
  · intro h
    split
    · rw [Bool.and_eq_true, decide_eq_true_iff, decide_eq_true_iff]
      exact ⟨(hle _ _).mp h.low_le, (hle _ _).mp h.le_high⟩
    · next hodd =>
      rw [beq_iff_eq] at hodd
      rw [Bool.and_eq_true, decide_eq_true_iff, decide_eq_true_iff]
      exact ⟨(hlt _ _).mp (h.low_lt hodd), (hlt _ _).mp (h.lt_high hodd)⟩

theorem covers_of_onGrid? {x : Binary64} {point : Int} {n c : Nat}
    (h : x.onGrid? point n = some c) : x.Covers (c * 10 ^ (point - n)) := by
  rw [onGrid?_eq] at h
  dsimp only at h
  rw [← fits_iff]
  split at h
  · next hdown _ => cases h; exact hdown
  · next _ hup => cases h; exact hup
  · next hdown hup =>
    cases h
    rw [nearestEven]
    split
    · exact hup
    · exact hdown
  · cases h

/-- Where the number itself lies on the grid, the search ends. -/
theorem exists_onGrid? {x : Binary64} {point : Int} {n : Nat} (hs : x.significand ≠ 0)
    (hk : point - n ≤ 0) (hle : point - n ≤ x.exponent) : ∃ c, x.onGrid? point n = some c := by
  obtain ⟨num, den, hnum, -, hscale, -⟩ := exists_onScale (x.exponent - 2) (point - n)
  have hdvd := onScale_dvd (e := x.exponent - 2) hk (by omega) x.significand
  have hmiddle : x.quarters.2.1 = 4 * x.significand := rfl
  have hlow : x.quarters.1 < 4 * x.significand := by
    rw [quarters]
    dsimp only
    split <;> omega
  have hhigh : 4 * x.significand < x.quarters.2.2 := Nat.lt_add_of_pos_right (by decide)
  have hfits : x.fits (point - n) (4 * x.significand * num / den) = true := by
    rw [hscale] at hdvd
    rw [fits, hscale, hscale, hscale]
    dsimp only
    rw [Nat.div_mul_cancel hdvd]
    have hbelow := Nat.mul_lt_mul_of_pos_right hlow hnum
    have habove := Nat.mul_lt_mul_of_pos_right hhigh hnum
    split
    · rw [Bool.and_eq_true, decide_eq_true_iff, decide_eq_true_iff]
      exact ⟨hbelow.le, habove.le⟩
    · rw [Bool.and_eq_true, decide_eq_true_iff, decide_eq_true_iff]
      exact ⟨hbelow, habove⟩
  rw [onGrid?_eq]
  dsimp only
  rw [hmiddle, hscale]
  dsimp only
  rw [hfits]
  split
  · exact ⟨_, rfl⟩
  · exact ⟨_, rfl⟩
  · exact ⟨_, rfl⟩
  · next h _ => cases h

/-! ## 4. The search -/

/-- The search ends on a grid, if one of those that it tries is fine enough for the number. -/
theorem exists_shortestFrom {x : Binary64} (hs : x.significand ≠ 0) (point : Int) (fuel n : Nat)
    (hk : point - (n + fuel : Nat) ≤ 0) (hle : point - (n + fuel : Nat) ≤ x.exponent) :
    ∃ c m : Nat, x.Covers (c * 10 ^ (point - m)) ∧
      x.shortestFrom point (fuel + 1) n =
        ⟨Nat.toDigits 10 c, point + ((Nat.toDigits 10 c).length - m)⟩ := by
  induction fuel generalizing n with
  | zero =>
    obtain ⟨c, hc⟩ := exists_onGrid? (n := n) hs (by omega) (by omega)
    refine ⟨c, n, covers_of_onGrid? hc, ?_⟩
    rw [shortestFrom, hc]
  | succ fuel ih =>
    rw [shortestFrom]
    cases hc : x.onGrid? point n with
    | some c => exact ⟨c, n, covers_of_onGrid? hc, rfl⟩
    | none => exact ih (n + 1) (by omega) (by omega)

/-- The point of a quotient stands high enough. -/
theorem lt_ten_zpow_pointOf {num den : Nat} (hnum : num ≠ 0) (hden : den ≠ 0) :
    (num / den : ℚ) < 10 ^ pointOf num den := by
  have hpos : (0 : ℚ) < den := by exact_mod_cast Nat.pos_of_ne_zero hden
  have hpos' : (0 : ℚ) < num := by exact_mod_cast Nat.pos_of_ne_zero hnum
  rw [pointOf]
  split
  · rw [zpow_natCast, div_lt_iff₀ hpos]
    have := Text.lt_pow_length_toDigits (num / den)
    rw [Nat.div_lt_iff_lt_mul (Nat.pos_of_ne_zero hden)] at this
    exact_mod_cast this
  · next hlt =>
    have hlen : 0 < (Nat.toDigits 10 (den / num)).length := Nat.length_toDigits_pos
    have hlow : 10 ^ ((Nat.toDigits 10 (den / num)).length - 1) ≤ den / num :=
      Text.pow_length_toDigits_le (Nat.div_pos (by omega) (Nat.pos_of_ne_zero hnum)).ne'
    dsimp only
    generalize (Nat.toDigits 10 (den / num)).length = t at hlen hlow ⊢
    rw [Nat.le_div_iff_mul_le (Nat.pos_of_ne_zero hnum)] at hlow
    have hshift : (1 - t : Int) = -((t - 1 : Nat) : Int) := by omega
    have hpow : (10 : ℚ) ^ (1 - t : Int) = (10 ^ (t - 1))⁻¹ := by
      rw [hshift, zpow_neg, zpow_natCast]
    have hten : (0 : ℚ) < 10 ^ (t - 1) := by positivity
    split
    · next hge =>
      have heq : (2 - t : Int) = 1 - t + 1 := by omega
      have hlow' : (10 ^ (t - 1) * num : ℚ) ≤ den := by exact_mod_cast hlow
      calc (num / den : ℚ) ≤ (10 ^ (t - 1))⁻¹ := by
            rw [div_le_iff₀ hpos, inv_mul_eq_div, le_div_iff₀ hten, mul_comm]
            exact hlow'
        _ = 10 ^ (1 - t : Int) := hpow.symm
        _ < 10 ^ (2 - t : Int) := zpow_lt_zpow_right₀ (by norm_num) (by omega)
    · next hlt' =>
      have hbelow : (num * 10 ^ (t - 1) : ℚ) < den := by
        have := Nat.lt_of_not_le hlt'
        rw [Nat.pow_eq] at this
        exact_mod_cast this
      rw [hpow, div_lt_iff₀ hpos, inv_mul_eq_div, lt_div_iff₀ hten]
      exact hbelow

/-- The magnitude of a number. -/
theorem magnitude_value (x : Binary64) :
    x.magnitude.2 ≠ 0 ∧ (x.magnitude.1 / x.magnitude.2 : ℚ) = x.significand * 2 ^ x.exponent := by
  have hterms : x.magnitude =
      (x.significand * (powerTerms 2 x.exponent).1, (powerTerms 2 x.exponent).2) := by
    rw [magnitude, powerTerms]
    split
    · rfl
    · rw [Nat.mul_one]
  rw [hterms]
  refine ⟨(powerTerms_pos (by decide) _).2.ne', ?_⟩
  rw [Nat.cast_mul, mul_div_assoc, powerTerms_value, Nat.cast_ofNat]

/-- The search is given enough grids to try. -/
theorem exactSize_pos {x : Binary64} (hs : x.significand ≠ 0) :
    0 < x.exactSize (pointOf x.magnitude.1 x.magnitude.2) := by
  obtain ⟨hden, hvalue⟩ := x.magnitude_value
  have hone : (1 : ℚ) ≤ x.significand := by exact_mod_cast Nat.pos_of_ne_zero hs
  have hpos : (0 : ℚ) < 2 ^ x.exponent := by positivity
  have hnum : x.magnitude.1 ≠ 0 := by
    intro hzero
    rw [hzero, Nat.cast_zero, zero_div] at hvalue
    exact absurd hvalue (mul_pos (by linarith) hpos).ne
  have hpoint := lt_ten_zpow_pointOf hnum hden
  by_contra hsize
  have hle : pointOf x.magnitude.1 x.magnitude.2 ≤ min x.exponent 0 := by
    rw [exactSize] at hsize
    omega
  have hfive : (5 : ℚ) ^ min x.exponent 0 ≤ 1 :=
    zpow_le_one_of_nonpos₀ (by norm_num) (min_le_right _ _)
  refine absurd hpoint (not_lt.mpr ?_)
  calc (10 : ℚ) ^ pointOf x.magnitude.1 x.magnitude.2 ≤ 10 ^ min x.exponent 0 :=
        zpow_le_zpow_right₀ (by norm_num) hle
    _ = 2 ^ min x.exponent 0 * 5 ^ min x.exponent 0 := by
        rw [← mul_zpow]
        norm_num
    _ ≤ 2 ^ min x.exponent 0 := mul_le_of_le_one_right (by positivity) hfive
    _ ≤ 2 ^ x.exponent := zpow_le_zpow_right₀ (by norm_num) (min_le_left _ _)
    _ ≤ x.significand * 2 ^ x.exponent := le_mul_of_one_le_left hpos.le hone
    _ = x.magnitude.1 / x.magnitude.2 := hvalue.symm

/-! ## 5. Final zeros -/

/-- The digits without their final zeros, and how many there were. -/
theorem exists_zeros (ds : List Char) :
    ∃ k, ds = (ds.reverse.dropWhile (· == '0')).reverse ++ List.replicate k '0' := by
  have hzeros : ds.rtakeWhile (· == '0') = List.replicate (ds.rtakeWhile (· == '0')).length '0' :=
    List.eq_replicate_of_mem fun c hc => by simpa using List.mem_rtakeWhile_imp hc
  have hsplit : ds.rdropWhile (· == '0') ++ ds.rtakeWhile (· == '0') = ds :=
    List.rdropWhile_append_rtakeWhile
  refine ⟨(ds.rtakeWhile (· == '0')).length, ?_⟩
  rw [← hzeros]
  exact hsplit.symm

/-- **The shortest digits of a number lie between the middles to its neighbours.** -/
theorem shortest_spec {x : Binary64} (hs : x.significand ≠ 0) :
    x.Covers x.shortest.value ∧ x.shortest.Proper := by
  have hsize := exactSize_pos hs
  rw [shortest]
  dsimp only
  generalize pointOf x.magnitude.1 x.magnitude.2 = point at hsize ⊢
  obtain ⟨fuel, hfuel⟩ := Nat.exists_eq_add_of_lt hsize
  rw [Nat.zero_add] at hfuel
  obtain ⟨c, m, hcovers, hsearch⟩ := exists_shortestFrom hs point fuel 1
    (by rw [exactSize] at hfuel; omega) (by rw [exactSize] at hfuel; omega)
  have hc : c ≠ 0 := by
    rintro rfl
    have := hcovers.ge hs
    rw [Nat.cast_zero, zero_mul] at this
    exact absurd this (not_le.mpr (by positivity))
  obtain ⟨k, hk⟩ := exists_zeros (Nat.toDigits 10 c)
  rw [hfuel, hsearch]
  dsimp only
  generalize hds : ((Nat.toDigits 10 c).reverse.dropWhile (· == '0')).reverse = ds at hk ⊢
  have hnumeral : c = Text.numeralValue ds * 10 ^ k := by
    rw [← Text.numeralValue_append_zeros, ← hk, Text.numeralValue_toDigits]
  have hne : ds ≠ [] := by
    rintro rfl
    rw [hnumeral] at hc
    exact hc (Nat.zero_mul _)
  constructor
  · have hpoint : point + ((Nat.toDigits 10 c).length - m : Int) - ds.length = point - m + k := by
      rw [hk, List.length_append, List.length_replicate]
      push_cast
      ring
    have hvalue : Digits.value ⟨ds, point + ((Nat.toDigits 10 c).length - m)⟩ =
        c * 10 ^ (point - m : Int) := by
      rw [Digits.value]
      dsimp only
      rw [hpoint, zpow_add₀ (by norm_num), hnumeral, zpow_natCast]
      push_cast
      ring
    rw [hvalue]
    exact hcovers
  · refine ⟨hne, fun d hd => ?_, ?_⟩
    · refine Nat.isDigit_of_mem_toDigits (b := 10) (n := c) (by decide) (by decide) ?_
      rw [hk]
      exact List.mem_append_left _ hd
    · have hhead := Text.head?_toDigits_ne hc
      rwa [hk, List.head?_append_of_ne_nil _ hne] at hhead

end Steward.Binary64
