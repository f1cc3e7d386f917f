import Mathlib.Data.Nat.ModEq
import Steward.Text.Case

/-!
# Lower case is final

What is in lower case stays as it is (`lower_lower`): no run of the table moves a character to one
that a run moves, and none of the characters that are treated apart comes out of it.
-/

namespace Steward.Text

/-! ## 1. Runs -/

/-- The run holds the character of a code. -/
def holds (n : Nat) (r : Nat × Nat × Nat × Int) : Bool :=
  r.1 ≤ n && n ≤ r.2.1 && (n - r.1) % r.2.2.1 == 0

/-- The first and the last character that a run moves others to, and the step between them. -/
def targets (r : Nat × Nat × Nat × Int) : Nat × Nat × Nat :=
  (((r.1 : Int) + r.2.2.2).toNat, ((r.2.1 : Int) + r.2.2.2).toNat, r.2.2.1)

/-- A run holds none of the characters from a first to a last one in steps. -/
def misses (area : Nat × Nat × Nat) (q : Nat × Nat × Nat × Int) : Bool :=
  area.2.1.blt q.1 || q.2.1.blt area.1 ||
    ((area.1 == area.2.1 || area.2.2 % q.2.2.1 == 0) && area.1 % q.2.2.1 != q.1 % q.2.2.1)

theorem not_holds_of_misses {first last step n : Nat} {q : Nat × Nat × Nat × Int}
    (h : misses (first, last, step) q = true) (hfirst : first ≤ n) (hlast : n ≤ last)
    (hstep : step ∣ n - first) : holds n q = false := by
  obtain ⟨k, hk⟩ := hstep
  simp only [misses, Bool.or_eq_true, Bool.and_eq_true, Nat.blt_eq, beq_iff_eq, bne_iff_ne] at h
  by_contra hholds
  simp only [holds, Bool.not_eq_false, Bool.and_eq_true, decide_eq_true_eq, beq_iff_eq] at hholds
  obtain ⟨⟨hge, hle⟩, hmod⟩ := hholds
  rcases h with (h | h) | ⟨hsame, hne⟩
  · omega
  · omega
  · -- all of the area leaves the same rest
    have hq : n % q.2.2.1 = q.1 % q.2.2.1 := by
      have := (Nat.modEq_iff_dvd' hge).mpr (Nat.dvd_of_mod_eq_zero hmod)
      exact this.symm
    have harea : n % q.2.2.1 = first % q.2.2.1 := by
      rcases hsame with heq | hdvd
      · rw [show n = first by omega]
      · have := (Nat.modEq_iff_dvd' hfirst).mpr
          ((Nat.dvd_of_mod_eq_zero hdvd).trans ⟨k, hk⟩)
        exact this.symm
    exact hne (harea.symm.trans hq)

/-- No run moves a character to one that a run holds, or to the dotted capital I. -/
theorem lowerRuns_final : ∀ r ∈ lowerRuns,
    (0 ≤ (r.1 : Int) + r.2.2.2 ∧ misses (targets r) (0x130, 0x130, 1, 0) = true) ∧
      lowerRuns.all (misses (targets r)) = true := by
  decide +kernel

/-! ## 2. Characters -/

/-- Nothing moves the character. -/
structure Final (c : Char) : Prop where
  undotted : c.toNat ≠ 0x130
  unmoved : ∀ r ∈ lowerRuns, holds c.toNat r = false

/-- All runs but the one of the Latin capitals begin beyond ASCII. -/
theorem final_of_ascii {c : Char} (h : c.toNat < 0x80)
    (hcapital : ¬ (0x41 ≤ c.toNat ∧ c.toNat ≤ 0x5A)) : Final c := by
  have hbeyond : ∀ r ∈ lowerRuns, r = (0x41, 0x5A, 1, 32) ∨ 0x80 ≤ r.1 := by decide +kernel
  refine ⟨by omega, fun r hr => Bool.eq_false_iff.mpr fun hholds => ?_⟩
  simp only [holds, Bool.and_eq_true, decide_eq_true_eq] at hholds
  rcases hbeyond r hr with rfl | hr
  · exact hcapital hholds.1
  · omega

theorem final_toLower {c : Char} (h : c.toNat < 0x80) : Final c.toLower := by
  have hall : ∀ n < 0x80, (Char.ofNat n).toLower.toNat < 0x80 ∧
      ¬ (0x41 ≤ (Char.ofNat n).toLower.toNat ∧ (Char.ofNat n).toLower.toNat ≤ 0x5A) := by
    decide
  have hc := hall c.toNat h
  rw [Char.ofNat_toNat] at hc
  exact final_of_ascii hc.1 hc.2

/-- What a run moves a character to. -/
theorem final_shift {c : Char} {r : Nat × Nat × Nat × Int} (hr : r ∈ lowerRuns)
    (h : holds c.toNat r = true) : Final (Char.ofNat ((c.toNat : Int) + r.2.2.2).toNat) := by
  obtain ⟨⟨hnonneg, hdotted⟩, hruns⟩ := lowerRuns_final r hr
  simp only [holds, Bool.and_eq_true, decide_eq_true_eq, beq_iff_eq] at h
  obtain ⟨⟨hge, hle⟩, hmod⟩ := h
  have hmiss {q : Nat × Nat × Nat × Int} (hq : misses (targets r) q = true) :
      holds ((c.toNat : Int) + r.2.2.2).toNat q = false := by
    refine not_holds_of_misses hq (by omega) (by omega) ?_
    rw [show ((c.toNat : Int) + r.2.2.2).toNat - ((r.1 : Int) + r.2.2.2).toNat = c.toNat - r.1
      by omega]
    exact Nat.dvd_of_mod_eq_zero hmod
  rw [List.all_eq_true] at hruns
  by_cases hvalid : (((c.toNat : Int) + r.2.2.2).toNat).isValidChar
  · have hcode : (Char.ofNat ((c.toNat : Int) + r.2.2.2).toNat).toNat =
        ((c.toNat : Int) + r.2.2.2).toNat := by
      rw [Char.ofNat, dif_pos hvalid]
      rfl
    refine ⟨fun heq => ?_, fun q hq => ?_⟩
    · have hundotted := hmiss hdotted
      rw [← hcode, heq] at hundotted
      cases hundotted
    · rw [hcode]
      exact hmiss (hruns q hq)
  · -- a code without a character would stand for the one of code zero
    rw [Char.ofNat, dif_neg hvalid]
    exact final_of_ascii (by decide) (by decide)

theorem final_shiftBy {c : Char} (h : c.toNat ≠ 0x130) : Final (shiftBy lowerRuns c) := by
  rw [shiftBy]
  split
  · rename_i r hr
    exact final_shift (List.mem_of_find?_eq_some hr) (List.find?_some hr)
  · rename_i hnone
    exact ⟨h, fun r hr => Bool.eq_false_iff.mpr (List.find?_eq_none.mp hnone r hr)⟩

/-- The lower case of a character is made of final ones. -/
theorem final_of_mem_lowerChar {before after : List Char} {c d : Char}
    (h : d ∈ lowerChar before c after) : Final d := by
  rw [lowerChar] at h
  split at h
  · rename_i hascii
    rw [List.mem_singleton.mp h]
    exact final_toLower hascii
  split at h
  · rw [List.mem_singleton.mp h]
    split
    · exact ⟨by decide, by decide +kernel⟩
    · exact ⟨by decide, by decide +kernel⟩
  split at h
  · rcases List.mem_cons.mp h with rfl | h
    · exact final_of_ascii (by decide) (by decide)
    · rw [List.mem_singleton.mp h]
      exact ⟨by decide, by decide +kernel⟩
  · rename_i hdotted
    rw [List.mem_singleton.mp h]
    exact final_shiftBy fun heq => hdotted (beq_iff_eq.mpr heq)

/-- A final character is its own lower case, wherever it stands. -/
theorem Final.lowerChar {c : Char} (h : Final c) (before after : List Char) :
    lowerChar before c after = [c] := by
  obtain ⟨hdotted, hruns⟩ := h
  have hlatin := hruns (0x41, 0x5A, 1, 32) (by decide)
  have hgreek := hruns (0x3A3, 0x3AB, 1, 32) (by decide +kernel)
  rw [Text.lowerChar]
  split
  · have hcapital : ¬ (0x41 ≤ c.toNat ∧ c.toNat ≤ 0x5A) := by
      simpa [holds, Nat.mod_one] using hlatin
    exact congrArg (fun d => [d]) (dif_neg hcapital)
  split
  · rename_i hsigma
    rw [eq_of_beq hsigma] at hgreek
    exact absurd hgreek (by decide)
  split
  · rename_i heq
    exact absurd (eq_of_beq heq) hdotted
  · have hnone : lowerRuns.find? (holds c.toNat) = none :=
      List.find?_eq_none.mpr fun r hr => Bool.eq_false_iff.mp (hruns r hr)
    unfold holds at hnone
    rw [shiftBy, hnone]

/-! ## 3. Texts -/

theorem lowerFrom_of_final {cs : List Char} (h : ∀ c ∈ cs, Final c) (before : List Char) :
    lowerFrom before cs = cs := by
  induction cs generalizing before with
  | nil => rfl
  | cons c rest ih =>
    rw [lowerFrom, (h c List.mem_cons_self).lowerChar,
      ih fun d hd => h d (List.mem_cons_of_mem _ hd)]
    rfl

theorem final_of_mem_lowerFrom {cs before : List Char} {d : Char} (h : d ∈ lowerFrom before cs) :
    Final d := by
  induction cs generalizing before with
  | nil => cases h
  | cons c rest ih =>
    rcases List.mem_append.mp h with h | h
    · exact final_of_mem_lowerChar h
    · exact ih h

/-- **What is in lower case stays as it is.** -/
theorem lower_lower (s : String) : lower (lower s) = lower s := by
  rw [lower, lower, String.toList_ofList, lowerFrom_of_final fun _ => final_of_mem_lowerFrom]

end Steward.Text
