import Mathlib.Data.List.Induction
import Mathlib.Tactic.Ring
import Steward.Proofs.Text.Parts
import Steward.Text.Numeral

/-!
# The number that digits denote

The digits of a number denote it, and zeros before it add nothing.  What is put behind digits moves
them up by as many places.

A text of digits is read as a whole number exactly if every one of them has a place value and there
are not too many (`readInteger_eq_ok_iff`): no digit is a blank, a sign or an underscore, so that
nothing is dropped from it.
-/

namespace Steward.Text

/-! ## 1. Digits in a row -/

theorem numeralValue_append (cs ds : List Char) :
    numeralValue (cs ++ ds) = numeralValue cs * 10 ^ ds.length + numeralValue ds := by
  induction ds using List.reverseRecOn with
  | nil => rw [List.append_nil, List.length_nil, Nat.pow_zero, Nat.mul_one]; rfl
  | append_singleton ds d ih =>
    rw [← List.append_assoc, numeralValue_append_singleton, numeralValue_append_singleton, ih,
      List.length_append, List.length_singleton]
    ring

theorem numeralValue_replicate_zero (k : Nat) : numeralValue (List.replicate k '0') = 0 := by
  induction k with
  | zero => rfl
  | succ k ih => rw [List.replicate_succ', numeralValue_append_singleton, ih]; rfl

/-- Zeros before the digits. -/
theorem numeralValue_zeros_append (k : Nat) (cs : List Char) :
    numeralValue (List.replicate k '0' ++ cs) = numeralValue cs := by
  rw [numeralValue_append, numeralValue_replicate_zero, Nat.zero_mul, Nat.zero_add]

/-- Zeros after the digits. -/
theorem numeralValue_append_zeros (cs : List Char) (k : Nat) :
    numeralValue (cs ++ List.replicate k '0') = numeralValue cs * 10 ^ k := by
  rw [numeralValue_append, numeralValue_replicate_zero, List.length_replicate, Nat.add_zero]

/-! ## 2. The digits of a number -/

theorem numeralValue_singleton : ∀ d < 10, numeralValue [Nat.digitChar d] = d := by decide

theorem numeralValue_toDigits (n : Nat) : numeralValue (Nat.toDigits 10 n) = n := by
  induction n using Nat.strongRecOn with
  | ind n ih =>
    rcases Nat.lt_or_ge n 10 with h | h
    · rw [Nat.toDigits_of_lt_base h, numeralValue_singleton n h]
    · rw [Nat.toDigits_of_base_le (by decide) h, numeralValue_append, ih (n / 10) (by omega),
        numeralValue_singleton _ (Nat.mod_lt _ (by decide)), List.length_singleton, Nat.pow_one,
        Nat.div_add_mod']

/-- The digits of a number are no fewer than it needs. -/
theorem lt_pow_length_toDigits (n : Nat) : n < 10 ^ (Nat.toDigits 10 n).length :=
  (Nat.length_toDigits_le_iff (by decide) Nat.length_toDigits_pos).mp (Nat.le_refl _)

/-- The digits of a number are no more than it needs. -/
theorem pow_length_toDigits_le {n : Nat} (h : n ≠ 0) :
    10 ^ ((Nat.toDigits 10 n).length - 1) ≤ n := by
  rcases Nat.eq_zero_or_pos ((Nat.toDigits 10 n).length - 1) with hzero | hpos
  · rw [hzero]
    exact Nat.pos_of_ne_zero h
  · by_contra hlt
    have := (Nat.length_toDigits_le_iff (by decide) hpos).mpr (Nat.lt_of_not_le hlt)
    omega

/-- The digits of a number other than zero begin with no zero. -/
theorem head?_toDigits_ne {n : Nat} (h : n ≠ 0) : (Nat.toDigits 10 n).head? ≠ some '0' := by
  induction n using Nat.strongRecOn with
  | ind n ih =>
    rcases Nat.lt_or_ge n 10 with hlt | hge
    · rw [Nat.toDigits_of_lt_base hlt, List.head?_cons, Ne, Option.some.injEq,
        Nat.digitChar_eq_zero]
      exact h
    · have hrest := ih (n / 10) (by omega) (by omega)
      rw [Nat.toDigits_of_base_le (by decide) hge]
      rwa [List.head?_append, Option.or_of_isSome (by simp)]

variable {c : Char} {cs : List Char} {n : Int}

/-! ## 3. What is no digit -/

/-- The codes of the blanks. -/
def blankCodes : List Nat :=
  [0x09, 0x0A, 0x0B, 0x0C, 0x0D, 0x1C, 0x1D, 0x1E, 0x1F, 0x20, 0x85, 0xA0, 0x1680, 0x2000, 0x2001,
    0x2002, 0x2003, 0x2004, 0x2005, 0x2006, 0x2007, 0x2008, 0x2009, 0x200A, 0x2028, 0x2029, 0x202F,
    0x205F, 0x3000]

theorem mem_blankCodes (h : isBlank c = true) : c.toNat ∈ blankCodes := by
  simp only [isBlank, Bool.or_eq_true, Bool.and_eq_true, decide_eq_true_eq, beq_iff_eq] at h
  simp only [blankCodes, List.mem_cons, List.not_mem_nil, or_false]
  omega

theorem isBlank_of_digitLike (h : isDigitLike c = true) : isBlank c = false := by
  have hcodes : ∀ n ∈ blankCodes, isDigitLike (Char.ofNat n) = false := by decide +kernel
  by_contra hblank
  have := hcodes _ (mem_blankCodes (Bool.not_eq_false _ ▸ hblank))
  rw [Char.ofNat_toNat, h] at this
  cases this

theorem isDigitLike_of_decimal (h : isDecimal c = true) : isDigitLike c = true := by
  rw [isDigitLike, h, Bool.true_or]

theorem ne_of_digitLike (h : isDigitLike c = true) {d : Char} (hd : isDigitLike d = false) :
    c ≠ d := by
  rintro rfl
  exact Bool.false_ne_true (hd.symm.trans h)

/-! ## 4. Reading digits -/

theorem trim_of_digitLike (h : ∀ c ∈ cs, isDigitLike c = true) : trim isWhiteSpace cs = cs := by
  have hwhite {c : Char} (hc : c ∈ cs) : isWhiteSpace c = false := by
    rw [isWhiteSpace, isBlank_of_digitLike (h c hc), Bool.false_and]
  have hstripped : Stripped isWhiteSpace cs cs :=
    stripped_self (fun c hc => hwhite (List.mem_of_mem_head? hc))
      fun c hc => hwhite (List.mem_of_mem_getLast? hc)
  exact (stripped_iff.mp hstripped).symm

/-- Without underscores there is nothing to leave out. -/
theorem ungroup?_eq (h : '_' ∉ cs) : ungroup? false cs = some cs := by
  induction cs with
  | nil => rfl
  | cons c rest ih =>
    rw [List.mem_cons, not_or] at h
    rw [ungroup?, ih h.2]
    · rfl
    · rintro rfl
      exact h.1 rfl

theorem ungroup?_eq_of_ne_nil (hne : cs ≠ []) (h : '_' ∉ cs) : ungroup? true cs = some cs := by
  cases cs with
  | nil => exact absurd rfl hne
  | cons c rest =>
    rw [List.mem_cons, not_or] at h
    rw [ungroup?, ungroup?_eq h.2]
    · rfl
    · rintro rfl
      exact h.1 rfl

theorem takeWhile_digitLike (h : ∀ c ∈ cs, isDigitLike c = true) :
    (cs.takeWhile fun c => isDecimal c || c == '_') = cs.takeWhile isDecimal := by
  induction cs with
  | nil => rfl
  | cons c rest ih =>
    rw [List.forall_mem_cons] at h
    rw [List.takeWhile_cons, List.takeWhile_cons, ih h.2,
      beq_eq_false_iff_ne.mpr (ne_of_digitLike h.1 (by decide)), Bool.or_false]

/-- Neither sign begins a text of digits. -/
theorem readInteger_digitLike (h : ∀ c ∈ cs, isDigitLike c = true) :
    readInteger (String.ofList cs) =
      match ungroup? true (cs.takeWhile isDecimal) with
      | none => .error (.malformed (String.ofList cs))
      | some digits =>
        if numeralLimit < digits.length then .error (.tooLong digits.length)
        else if (cs.takeWhile isDecimal).length < cs.length then
          .error (.malformed (String.ofList cs))
        else .ok (numeralValue digits) := by
  have hminus : ∀ rest, cs ≠ '-' :: rest := by
    rintro rest rfl
    exact absurd (h '-' List.mem_cons_self) (by decide)
  have hplus : ∀ rest, cs ≠ '+' :: rest := by
    rintro rest rfl
    exact absurd (h '+' List.mem_cons_self) (by decide)
  rw [readInteger, String.toList_ofList, trim_of_digitLike h]
  split
  next negative body heq =>
    have hbody : negative = false ∧ body = cs := by
      split at heq
      · exact absurd rfl (hminus _)
      · exact absurd rfl (hplus _)
      · exact ⟨(congrArg Prod.fst heq).symm, (congrArg Prod.snd heq).symm⟩
    obtain ⟨rfl, rfl⟩ := hbody
    rw [takeWhile_digitLike h]
    rfl

/-- **Digits are a whole number exactly if all have a place value and they are not too many.** -/
theorem readInteger_eq_ok_iff (hne : cs ≠ []) (h : ∀ c ∈ cs, isDigitLike c = true) :
    readInteger (String.ofList cs) = .ok n ↔
      (∀ c ∈ cs, isDecimal c = true) ∧ cs.length ≤ numeralLimit ∧ n = numeralValue cs := by
  have hunderscore : '_' ∉ cs := fun hmem => absurd (h '_' hmem) (by decide)
  rw [readInteger_digitLike h]
  constructor
  · intro hok
    have hprefix : '_' ∉ cs.takeWhile isDecimal := fun hmem =>
      hunderscore ((List.takeWhile_prefix _).mem hmem)
    cases hdigits : cs.takeWhile isDecimal with
    | nil =>
      rw [hdigits] at hok
      cases hok
    | cons d ds =>
      rw [ungroup?_eq_of_ne_nil (hdigits ▸ List.cons_ne_nil d ds) hprefix] at hok
      dsimp only at hok
      split at hok
      · cases hok
      split at hok
      · cases hok
      rename_i hlimit hlength
      -- no digit without a place value is left, so that none was left out
      have hwhole : cs.takeWhile isDecimal = cs :=
        (List.takeWhile_prefix _).eq_of_length_le (Nat.le_of_not_lt hlength)
      rw [hwhole] at hok hlimit
      exact ⟨List.takeWhile_eq_self_iff.mp hwhole, Nat.le_of_not_lt hlimit,
        (Except.ok.inj hok).symm⟩
  · rintro ⟨hdecimal, hlimit, rfl⟩
    rw [List.takeWhile_eq_self_iff.mpr hdecimal, ungroup?_eq_of_ne_nil hne hunderscore]
    dsimp only
    rw [if_neg (Nat.not_lt.mpr hlimit), if_neg (Nat.lt_irrefl _)]

theorem error_of_readInteger (h : ∀ c ∈ cs, isDigitLike c = true) {e : NumeralError}
    (herror : readInteger (String.ofList cs) = .error e) :
    e = .malformed (String.ofList cs) ∨ ∃ k, numeralLimit < k ∧ e = .tooLong k := by
  rw [readInteger_digitLike h] at herror
  split at herror
  · exact .inl (Except.error.inj herror).symm
  split at herror
  · rename_i hlimit
    exact .inr ⟨_, hlimit, (Except.error.inj herror).symm⟩
  split at herror
  · exact .inl (Except.error.inj herror).symm
  · cases herror

end Steward.Text
