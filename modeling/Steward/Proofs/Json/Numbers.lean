import Mathlib.Data.List.TakeWhile
import Steward.Json.Parser
import Steward.Json.Printer
import Steward.Proofs.Decimal.Shortest

/-!
# Numbers come back from their text

A number is read as digits, a fraction and an exponent, as far as they go.  Behind the text of a
number stands nothing that would prolong it, so each part is read as it was written.  A whole
number comes back if its digits are not too many, a binary number if it is finite: the digits that
are written are those of a decimal that is read as it.
-/

namespace Steward.Json

/-- What may follow a value: nothing, or what ends an item or a member. -/
def Ends (cs : List Char) : Prop := ∀ c ∈ cs.head?, c = ',' ∨ c = ']' ∨ c = '}'

theorem ends_nil : Ends [] := nofun

theorem ends_cons {c : Char} (h : c = ',' ∨ c = ']' ∨ c = '}') (cs : List Char) :
    Ends (c :: cs) := by
  rintro d hd
  cases hd
  exact h

/-! ## 1. Digits -/

/-- No digit comes first. -/
def NoDigit (cs : List Char) : Prop := ∀ c ∈ cs.head?, isAsciiDigit c = false

theorem Ends.noDigit {cs : List Char} (h : Ends cs) : NoDigit cs := by
  intro c hc
  rcases h c hc with rfl | rfl | rfl <;> rfl

theorem noDigit_cons {c : Char} (h : isAsciiDigit c = false) (cs : List Char) :
    NoDigit (c :: cs) := by
  rintro d hd
  cases hd
  exact h

theorem span_digits {ds tail : List Char} (hds : ∀ c ∈ ds, isAsciiDigit c = true)
    (htail : NoDigit tail) : (ds ++ tail).span isAsciiDigit = (ds, tail) := by
  rw [List.span_eq_takeWhile_dropWhile, List.takeWhile_append_of_pos hds,
    List.dropWhile_append_of_pos hds]
  cases tail with
  | nil => rw [List.takeWhile_nil, List.append_nil, List.dropWhile_nil]
  | cons c tail =>
    have hc := htail c rfl
    rw [List.takeWhile_cons_of_neg (by rw [hc]; exact Bool.false_ne_true), List.append_nil,
      List.dropWhile_cons_of_neg (by rw [hc]; exact Bool.false_ne_true)]

/-- The digits before a point: there are some, and none but a zero that is the only one is zero and
comes first. -/
structure Whole (ds : List Char) : Prop where
  ne_nil : ds ≠ []
  isDigit : ∀ c ∈ ds, isAsciiDigit c = true
  eq_of_head : ds.head? = some '0' → ds = ['0']

theorem whole_zero : Whole ['0'] :=
  ⟨List.cons_ne_nil _ _, List.forall_mem_singleton.mpr rfl, fun _ => rfl⟩

theorem whole_toDigits (n : Nat) : Whole (Nat.toDigits 10 n) := by
  refine ⟨Nat.toDigits_ne_nil,
    fun c hc => Nat.isDigit_of_mem_toDigits (by decide) (by decide) hc, ?_⟩
  intro hhead
  by_cases h : n = 0
  · rw [h]
    rfl
  · exact absurd hhead (Text.head?_toDigits_ne h)

/-! ## 2. Parts of a number -/

theorem parseFraction_digits {ds tail : List Char} (hne : ds ≠ [])
    (hds : ∀ c ∈ ds, isAsciiDigit c = true) (htail : NoDigit tail) :
    parseFraction ('.' :: (ds ++ tail)) = (ds, tail) := by
  rw [parseFraction, span_digits hds htail]
  split
  · next h => exact absurd (congrArg Prod.fst h) hne
  · next h =>
    cases h
    rfl

theorem parseFraction_none {tail : List Char} (h : tail.head? ≠ some '.') :
    parseFraction tail = ([], tail) := by
  rw [parseFraction]
  rintro rest rfl
  exact h rfl

theorem parseExponent_none {tail : List Char} (h : Ends tail) :
    parseExponent tail = (none, tail) := by
  cases tail with
  | nil => rfl
  | cons c tail => rcases h c rfl with rfl | rfl | rfl <;> rfl

theorem parseExponent_digits {ds tail : List Char} {sign : Char} (hsign : sign = '-' ∨ sign = '+')
    (hne : ds ≠ []) (hds : ∀ c ∈ ds, isAsciiDigit c = true) (htail : NoDigit tail) :
    parseExponent ('e' :: sign :: (ds ++ tail)) =
      (some (if sign = '-' then -(Text.numeralValue ds : Int) else Text.numeralValue ds),
        tail) := by
  have hspan := span_digits hds htail
  rcases hsign with rfl | rfl
  all_goals
    rw [parseExponent]
    simp only [beq_self_eq_true, Bool.true_or, if_true]
    rw [hspan]
    split
    · next h => exact absurd (congrArg Prod.fst h) hne
    · next h =>
      cases h
      rfl

/-- The exponent of a number in scientific form is read. -/
theorem parseExponent_exponentText (e : Int) {tail : List Char} (htail : NoDigit tail) :
    parseExponent ('e' :: (Binary64.exponentText e ++ tail)) = (some e, tail) := by
  have hdigits : ∀ c ∈ Nat.toDigits 10 e.natAbs, isAsciiDigit c = true := (whole_toDigits _).isDigit
  obtain ⟨ds, hds, hne, hall, hvalue⟩ : ∃ ds, ds = (if (Nat.toDigits 10 e.natAbs).length < 2 then
      '0' :: Nat.toDigits 10 e.natAbs else Nat.toDigits 10 e.natAbs) ∧ ds ≠ [] ∧
      (∀ c ∈ ds, isAsciiDigit c = true) ∧ Text.numeralValue ds = e.natAbs := by
    split
    · refine ⟨_, rfl, List.cons_ne_nil _ _, ?_, ?_⟩
      · rw [List.forall_mem_cons]
        exact ⟨rfl, hdigits⟩
      · exact (Text.numeralValue_zeros_append 1 _).trans (Text.numeralValue_toDigits _)
    · exact ⟨_, rfl, Nat.toDigits_ne_nil, hdigits, Text.numeralValue_toDigits _⟩
  rw [Binary64.exponentText, ← hds, List.cons_append]
  split
  · rw [parseExponent_digits (.inl rfl) hne hall htail, if_pos rfl, hvalue]
    congr 2
    omega
  · rw [parseExponent_digits (.inr rfl) hne hall htail, if_neg (by decide), hvalue]
    congr 2
    omega

/-- The parts of a number are read one after the other. -/
theorem parseMagnitude_whole (start : List Char) (negative : Bool)
    {whole tail fraction rest rest' : List Char} {exponent : Option Int} (hwhole : Whole whole)
    (htail : NoDigit tail) (hfraction : parseFraction tail = (fraction, rest))
    (hexponent : parseExponent rest = (exponent, rest')) :
    parseMagnitude start negative (whole ++ tail) =
      if fraction.isEmpty && exponent.isNone then
        if Text.numeralLimit < whole.length then .error ⟨.longNumeral whole.length, start⟩
        else
          .ok (.int (if negative then -(Text.numeralValue whole : Int)
            else Text.numeralValue whole), rest')
      else
        .ok (.float (Binary64.ofDecimal negative (Text.numeralValue (whole ++ fraction))
          (exponent.getD 0 - fraction.length)), rest') := by
  have hsome : ¬(whole.isEmpty = true) := by
    rw [List.isEmpty_iff]
    exact hwhole.ne_nil
  by_cases hzero : whole.head? = some '0'
  · obtain rfl := hwhole.eq_of_head hzero
    rw [List.singleton_append, parseMagnitude, hfraction]
    dsimp only
    rw [if_neg hsome, hexponent]
  · have hother : ∀ more, whole ++ tail = '0' :: more → False := by
      intro more hmore
      rw [← List.head?_append_of_ne_nil _ hwhole.ne_nil, hmore] at hzero
      exact hzero rfl
    rw [parseMagnitude, span_digits hwhole.isDigit htail]
    · dsimp only
      rw [if_neg hsome, hfraction]
      dsimp only
      rw [hexponent]
    · exact hother

/-! ## 3. Whole numbers -/

theorem parseMagnitude_toDigits (start : List Char) (negative : Bool) {n : Nat}
    (h : (Nat.toDigits 10 n).length ≤ Text.numeralLimit) {rest : List Char} (hrest : Ends rest) :
    parseMagnitude start negative (Nat.toDigits 10 n ++ rest) =
      .ok (.int (if negative then -(n : Int) else n), rest) := by
  have hpoint : rest.head? ≠ some '.' := by
    intro hhead
    rcases hrest '.' hhead with h | h | h <;> exact absurd h (by decide)
  rw [parseMagnitude_whole start negative (whole_toDigits n) hrest.noDigit
    (parseFraction_none hpoint) (parseExponent_none hrest)]
  rw [if_pos (by rfl), if_neg (Nat.not_lt.mpr h), Text.numeralValue_toDigits]

/-! ## 4. Decimals -/

/-- Characters are read as a decimal, rounded to a binary number. -/
def ReadsAs (cs : List Char) (q : ℚ) : Prop :=
  ∀ (start : List Char) (negative : Bool) (rest : List Char), Ends rest →
    ∃ (n : Nat) (k : Int), (n * 10 ^ k : ℚ) = q ∧
      parseMagnitude start negative (cs ++ rest) =
        .ok (.float (Binary64.ofDecimal negative n k), rest)

theorem readsAs_point {whole fraction : List Char} (hwhole : Whole whole) (hne : fraction ≠ [])
    (hfraction : ∀ c ∈ fraction, isAsciiDigit c = true) :
    ReadsAs (whole ++ '.' :: fraction)
      (Text.numeralValue (whole ++ fraction) * 10 ^ (-(fraction.length : Int))) := by
  intro start negative rest hrest
  have hsome : ¬((fraction.isEmpty && (none : Option Int).isNone) = true) := by
    rw [Option.isNone_none, Bool.and_true, List.isEmpty_iff]
    exact hne
  refine ⟨_, _, rfl, ?_⟩
  rw [List.append_assoc, List.cons_append, parseMagnitude_whole start negative hwhole
    (noDigit_cons rfl _) (parseFraction_digits hne hfraction hrest.noDigit)
    (parseExponent_none hrest), if_neg hsome, Option.getD_none, Int.zero_sub]

theorem readsAs_exponent {whole fraction : List Char} (hwhole : Whole whole)
    (hfraction : ∀ c ∈ fraction, isAsciiDigit c = true) (e : Int) :
    ReadsAs (whole ++ (if fraction = [] then [] else '.' :: fraction) ++
        'e' :: Binary64.exponentText e)
      (Text.numeralValue (whole ++ fraction) * 10 ^ (e - fraction.length)) := by
  intro start negative rest hrest
  refine ⟨_, _, rfl, ?_⟩
  obtain ⟨tail, htail, hdigit, hparts⟩ : ∃ tail,
      tail = (if fraction = [] then [] else '.' :: fraction) ++ 'e' ::
        (Binary64.exponentText e ++ rest) ∧ NoDigit tail ∧
      parseFraction tail = (fraction, 'e' :: (Binary64.exponentText e ++ rest)) := by
    refine ⟨_, rfl, ?_⟩
    split
    · next h =>
      rw [h]
      exact ⟨noDigit_cons rfl _, parseFraction_none fun h => absurd (Option.some.inj h) (by decide)⟩
    · next h => exact ⟨noDigit_cons rfl _, parseFraction_digits h hfraction (noDigit_cons rfl _)⟩
  rw [List.append_assoc, List.append_assoc, List.cons_append, ← htail, parseMagnitude_whole start
    negative hwhole hdigit hparts (parseExponent_exponentText e hrest.noDigit), Option.isNone_some,
    Bool.and_false, if_neg Bool.false_ne_true, Option.getD_some]

/-! ## 5. Binary numbers -/

section Text

variable {ds : List Char} (hne : ds ≠ []) (hall : ∀ c ∈ ds, isAsciiDigit c = true)

include hne hall

/-- All digits behind the point, and zeros before them. -/
theorem readsAs_below {p : Int} (hp : p ≤ 0) :
    ReadsAs ('0' :: '.' :: (List.replicate (-p).toNat '0' ++ ds))
      (Text.numeralValue ds * 10 ^ (p - ds.length)) := by
  have hdigits : ∀ c ∈ List.replicate (-p).toNat '0' ++ ds, isAsciiDigit c = true := by
    rw [List.forall_mem_append]
    exact ⟨fun c hc => List.eq_of_mem_replicate hc ▸ rfl, hall⟩
  have h := readsAs_point whole_zero (List.append_ne_nil_of_right_ne_nil _ hne) hdigits
  have hvalue : Text.numeralValue (['0'] ++ (List.replicate (-p).toNat '0' ++ ds)) =
      Text.numeralValue ds :=
    (Text.numeralValue_zeros_append 1 _).trans (Text.numeralValue_zeros_append _ _)
  have hpoint : -((List.replicate (-p).toNat '0' ++ ds).length : Int) = p - ds.length := by
    rw [List.length_append, List.length_replicate]
    omega
  rwa [hvalue, hpoint] at h

variable (hhead : ds.head? ≠ some '0')

include hhead

/-- All digits before the point, and zeros after them. -/
theorem readsAs_above {p : Int} (hp : ds.length ≤ p) :
    ReadsAs (ds ++ List.replicate (p - ds.length).toNat '0' ++ ['.', '0'])
      (Text.numeralValue ds * 10 ^ (p - ds.length)) := by
  have hwhole : Whole (ds ++ List.replicate (p - ds.length).toNat '0') := by
    refine ⟨List.append_ne_nil_of_left_ne_nil hne _, ?_, ?_⟩
    · rw [List.forall_mem_append]
      exact ⟨hall, fun c hc => List.eq_of_mem_replicate hc ▸ rfl⟩
    · rw [List.head?_append_of_ne_nil _ hne]
      exact fun h => absurd h hhead
  have h := readsAs_point hwhole whole_zero.ne_nil whole_zero.isDigit
  have hvalue : Text.numeralValue (ds ++ List.replicate (p - ds.length).toNat '0' ++ ['0']) =
      Text.numeralValue ds * 10 ^ (p - ds.length).toNat * 10 := by
    rw [← Text.numeralValue_append_zeros]
    exact Text.numeralValue_append_zeros _ 1
  have hpower : (10 : ℚ) ^ (p - ds.length) = 10 ^ (p - ds.length).toNat := by
    conv_lhs => rw [← Int.toNat_of_nonneg (by omega : 0 ≤ p - ds.length)]
    rw [zpow_natCast]
  have hlast : (10 : ℚ) * 10 ^ (-(['0'].length : Int)) = 1 := by norm_num
  rw [hvalue, Nat.cast_mul, Nat.cast_mul, Nat.cast_pow, Nat.cast_ofNat, mul_assoc, hlast, mul_one,
    ← hpower] at h
  exact h

/-- The point between the digits. -/
theorem readsAs_between {p : Int} (hp : 0 < p) (hp' : p < ds.length) :
    ReadsAs (ds.take p.toNat ++ '.' :: ds.drop p.toNat)
      (Text.numeralValue ds * 10 ^ (p - ds.length)) := by
  have hwhole : Whole (ds.take p.toNat) := by
    refine ⟨?_, fun c hc => hall c (List.mem_of_mem_take hc), ?_⟩
    · rw [Ne, List.take_eq_nil_iff, not_or]
      exact ⟨by omega, hne⟩
    · rw [List.head?_take, if_neg (by omega)]
      exact fun h => absurd h hhead
  have hdrop : ds.drop p.toNat ≠ [] := mt List.drop_eq_nil_iff.mp (by omega)
  have h := readsAs_point hwhole hdrop fun c hc => hall c (List.mem_of_mem_drop hc)
  have hpoint : -((ds.drop p.toNat).length : Int) = p - ds.length := by
    rw [List.length_drop]
    omega
  rwa [List.take_append_drop, hpoint] at h

end Text

/-- One digit before the point, and an exponent. -/
theorem readsAs_scientific (ds : List Char) (p : Int) :
    ds ≠ [] → (∀ c ∈ ds, isAsciiDigit c = true) → ds.head? ≠ some '0' →
      ReadsAs ((match ds with
          | [] => ['0']
          | [c] => [c]
          | c :: rest => c :: '.' :: rest) ++ 'e' :: Binary64.exponentText (p - 1))
        (Text.numeralValue ds * 10 ^ (p - ds.length)) := by
  intro hne hall hhead
  obtain ⟨c, rest, rfl⟩ := List.exists_cons_of_ne_nil hne
  rw [List.forall_mem_cons] at hall
  have hwhole : Whole [c] := by
    refine ⟨List.cons_ne_nil _ _, ?_, fun h => absurd h hhead⟩
    rw [List.forall_mem_singleton]
    exact hall.1
  have h := readsAs_exponent hwhole hall.2 (p - 1)
  have hpoint : p - 1 - (rest.length : Int) = p - (c :: rest).length := by
    rw [List.length_cons]
    omega
  rw [List.singleton_append, hpoint] at h
  cases rest <;> exact h

/-- Positional or scientific, the text of digits is read as what they denote. -/
theorem readsAs_text {d : Binary64.Digits} (hd : d.Proper) : ReadsAs d.text d.value := by
  obtain ⟨hne, hall, hhead⟩ := hd
  rw [Binary64.Digits.text, Binary64.Digits.value]
  dsimp only
  split
  · split
    · next hp => exact readsAs_below hne hall hp
    split
    · next hp => exact readsAs_above hne hall hhead hp
    · exact readsAs_between hne hall hhead (by omega) (by omega)
  · exact readsAs_scientific d.digits d.point hne hall hhead

/-- **A finite number is read from the digits that are written for it.** -/
theorem parseMagnitude_finite {x : Binary64} (hx : x.isFinite = true) (start : List Char)
    {rest : List Char} (hrest : Ends rest) :
    parseMagnitude start x.negative
      ((if x.significand = 0 then ['0', '.', '0'] else x.shortest.text) ++ rest) =
        .ok (.float x, rest) := by
  split
  · next hs =>
    obtain ⟨n, k, hvalue, hparse⟩ :=
      readsAs_point whole_zero whole_zero.ne_nil whole_zero.isDigit start x.negative rest hrest
    have hzero : n = 0 := by
      have hnumeral : Text.numeralValue (['0'] ++ ['0']) = 0 := rfl
      have hpow : (10 : ℚ) ^ k ≠ 0 := by positivity
      rw [hnumeral, Nat.cast_zero, zero_mul, mul_eq_zero, or_iff_left hpow] at hvalue
      exact_mod_cast hvalue
    rw [hzero, Binary64.ofDecimal_zero hs] at hparse
    exact hparse
  · next hs =>
    obtain ⟨hcovers, hproper⟩ := Binary64.shortest_spec hs
    obtain ⟨n, k, hvalue, hparse⟩ := readsAs_text hproper start x.negative rest hrest
    rw [← hvalue] at hcovers
    rw [hparse, hcovers.ofDecimal_eq hs hx]

end Steward.Json
