import Mathlib.Data.List.Nodup
import Mathlib.Data.List.TakeDrop
import Mathlib.Tactic.Ring
import Steward.Duration
import Steward.Proofs.Text.Numeral

/-!
# The texts that are durations

A text is a duration (`parse_duration`) exactly if, without the blanks around it, it is a numeral,
or numerals before `h`, `m` and `s`, in this order, each at most once and at least one of them
(`Written`).  A reader that looks for one unit after the other and passes over a unit whose numeral
does not come next never has to go back: a numeral is followed by one character, and no unit is
asked for twice.
-/

namespace Steward.Duration

open Text

/-! ## 1. The grammar -/

/-- Decimal digits of any script, at least one and no more than can be read. -/
structure Numeral (digits : List Char) : Prop where
  ne_nil : digits ≠ []
  decimal : ∀ c ∈ digits, isDecimal c = true
  short : digits.length ≤ numeralLimit

/-- What is written for a unit, and how many it counts: a numeral before the unit, or nothing. -/
inductive Part (unit : Char) : List Char → Nat → Prop
  | absent : Part unit [] 0
  | present {digits : List Char} (h : Numeral digits) :
      Part unit (digits ++ [unit]) (numeralValue digits)

/-- The texts of durations without blanks around them, and their seconds. -/
inductive Written : List Char → Nat → Prop
  | seconds {digits : List Char} (h : Numeral digits) : Written digits (numeralValue digits)
  | units {hours minutes seconds : List Char} {h m s : Nat} (hhours : Part 'h' hours h)
      (hminutes : Part 'm' minutes m) (hseconds : Part 's' seconds s)
      (hne : hours ++ minutes ++ seconds ≠ []) :
      Written (hours ++ minutes ++ seconds) (3600 * h + 60 * m + s)

/-- What is written for units in their order, and its seconds. -/
inductive Parts : List (Char × Nat) → List Char → Nat → Prop
  | nil : Parts [] [] 0
  | cons {unit : Char} {seconds : Nat} {us : List (Char × Nat)} {part rest : List Char} {n m : Nat}
      (h : Part unit part n) (hrest : Parts us rest m) :
      Parts ((unit, seconds) :: us) (part ++ rest) (n * seconds + m)

/-- A unit that is left out counts nothing. -/
theorem Parts.cons_absent {us : List (Char × Nat)} {rest : List Char} {m : Nat}
    (h : Parts us rest m) (u : Char × Nat) : Parts (u :: us) rest m := by
  have hparts : Parts ((u.1, u.2) :: us) ([] ++ rest) (0 * u.2 + m) := .cons .absent h
  rwa [List.nil_append, Nat.zero_mul, Nat.zero_add] at hparts

/-- A numeral before its unit. -/
theorem Parts.cons_present {us : List (Char × Nat)} {rest digits : List Char} {m : Nat}
    (h : Parts us rest m) (hdigits : Numeral digits) (u : Char × Nat) :
    Parts (u :: us) (digits ++ u.1 :: rest) (numeralValue digits * u.2 + m) := by
  have hparts : Parts ((u.1, u.2) :: us) (digits ++ [u.1] ++ rest) _ := .cons (.present hdigits) h
  rwa [List.append_assoc, List.singleton_append] at hparts

theorem parts_units_iff {cs : List Char} {n : Nat} :
    Parts units cs n ↔ ∃ hours minutes seconds h m s, Part 'h' hours h ∧ Part 'm' minutes m ∧
      Part 's' seconds s ∧ cs = hours ++ minutes ++ seconds ∧ n = 3600 * h + 60 * m + s := by
  constructor
  · intro h
    cases h with
    | cons hhours h =>
      cases h with
      | cons hminutes h =>
        cases h with
        | cons hseconds h =>
          cases h
          refine ⟨_, _, _, _, _, _, hhours, hminutes, hseconds, ?_, ?_⟩
          · rw [List.append_nil, List.append_assoc]
          · ring
  · rintro ⟨hours, minutes, seconds, h, m, s, hhours, hminutes, hseconds, rfl, rfl⟩
    have hparts : Parts units _ _ := .cons hhours (.cons hminutes (.cons hseconds .nil))
    rw [List.append_nil, ← List.append_assoc] at hparts
    convert hparts using 1
    ring

/-! ## 2. One unit -/

/-- The text begins with digits before the unit. -/
structure Begins (unit : Char) (digits rest cs : List Char) : Prop where
  ne_nil : digits ≠ []
  decimal : ∀ c ∈ digits, isDecimal c = true
  eq : cs = digits ++ unit :: rest

variable {unit other : Char} {seconds : Nat} {us : List (Char × Nat)}
  {digits rest cs : List Char}

theorem Begins.span (h : Begins unit digits rest cs) (hunit : isDecimal unit = false) :
    cs.span isDecimal = (digits, unit :: rest) := by
  rw [h.eq, List.span_eq_takeWhile_dropWhile, List.takeWhile_append_of_pos h.decimal,
    List.dropWhile_append_of_pos h.decimal, List.takeWhile_cons_of_neg (Bool.eq_false_iff.mp hunit),
    List.dropWhile_cons_of_neg (Bool.eq_false_iff.mp hunit), List.append_nil]

/-- Only one unit can come next. -/
theorem Begins.unit_eq {digits' rest' : List Char} (h : Begins unit digits rest cs)
    (h' : Begins other digits' rest' cs) (hunit : isDecimal unit = false)
    (hother : isDecimal other = false) : unit = other := by
  have heq := (h.span hunit).symm.trans (h'.span hother)
  rw [Prod.mk.injEq, List.cons.injEq] at heq
  exact heq.2.1

/-- Digits before the unit are taken. -/
theorem parts?_of_begins (h : Begins unit digits rest cs) (hunit : isDecimal unit = false) :
    parts? ((unit, seconds) :: us) cs = (parts? us rest).map ((digits, seconds) :: ·) := by
  rw [parts?, h.span hunit]
  cases digits with
  | nil => exact absurd rfl h.ne_nil
  | cons d ds => exact if_pos (beq_self_eq_true unit)

/-- A unit whose numeral does not come next is passed over. -/
theorem parts?_of_not_begins (h : ∀ digits rest, ¬ Begins unit digits rest cs) :
    parts? ((unit, seconds) :: us) cs = parts? us cs := by
  have hcs : cs = cs.takeWhile isDecimal ++ cs.dropWhile isDecimal :=
    List.takeWhile_append_dropWhile.symm
  rw [parts?, List.span_eq_takeWhile_dropWhile]
  split
  · rfl
  · rename_i ds c after hne heq
    rw [Prod.mk.injEq] at heq
    rw [heq.1, heq.2] at hcs
    refine if_neg fun hc => h ds after ⟨?_, ?_, ?_⟩
    · rintro rfl
      exact hne rfl
    · rw [← heq.1]
      exact fun d hd => List.mem_takeWhile_imp hd
    · rwa [eq_of_beq hc] at hcs
  · rfl

/-- No text is taken to pieces if it begins with a unit that is not asked for. -/
theorem parts?_eq_none (h : Begins unit digits rest cs) (hunit : isDecimal unit = false)
    (hplain : ∀ u ∈ us, isDecimal u.1 = false) (hother : unit ∉ us.map Prod.fst) :
    parts? us cs = none := by
  induction us with
  | nil =>
    rw [h.eq]
    cases digits with
    | nil => exact absurd rfl h.ne_nil
    | cons d ds => rfl
  | cons u us ih =>
    rw [List.forall_mem_cons] at hplain
    rw [List.map_cons, List.mem_cons, not_or] at hother
    rw [parts?_of_not_begins fun _ _ h' => hother.1 (h.unit_eq h' hunit hplain.1)]
    exact ih hplain.2 hother.2

/-- Nothing is found only where nothing is written. -/
theorem parts?_eq_nil_iff (hplain : ∀ u ∈ us, isDecimal u.1 = false) :
    parts? us cs = some [] ↔ cs = [] := by
  induction us with
  | nil => cases cs <;> simp [parts?]
  | cons u us ih =>
    obtain ⟨unit, seconds⟩ := u
    rw [List.forall_mem_cons] at hplain
    by_cases hbegins : ∃ digits rest, Begins unit digits rest cs
    · obtain ⟨digits, rest, h⟩ := hbegins
      rw [parts?_of_begins h hplain.1, Option.map_eq_some_iff]
      refine iff_of_false ?_ ?_
      · rintro ⟨ps, -, hps⟩
        cases hps
      · rw [h.eq]
        exact List.append_ne_nil_of_right_ne_nil _ (List.cons_ne_nil _ _)
    · simp only [not_exists] at hbegins
      rw [parts?_of_not_begins hbegins, ih hplain.2]

/-! ## 3. All units -/

theorem total_cons_iff {ps : List (List Char × Nat)} {n : Nat} :
    total ((digits, seconds) :: ps) = .ok n ↔ digits.length ≤ numeralLimit ∧
      ∃ m, total ps = .ok m ∧ n = numeralValue digits * seconds + m := by
  rw [total, numeral]
  split
  · rename_i hlong
    refine iff_of_false (fun h => ?_) fun h => absurd h.1 (Nat.not_le.mpr hlong)
    cases h
  · rename_i hshort
    rw [and_iff_right (Nat.le_of_not_lt hshort)]
    cases total ps with
    | error e =>
      refine iff_of_false (fun h => ?_) ?_
      · cases h
      · rintro ⟨m, h, -⟩
        cases h
    | ok m =>
      constructor
      · intro h
        cases h
        exact ⟨m, rfl, rfl⟩
      · rintro ⟨m', h, rfl⟩
        cases h
        rfl

/-- **Units in their order are read as they are written.** -/
theorem parts_iff (hplain : ∀ u ∈ us, isDecimal u.1 = false) (hnodup : (us.map Prod.fst).Nodup)
    {n : Nat} : Parts us cs n ↔ ∃ ps, parts? us cs = some ps ∧ total ps = .ok n := by
  induction us generalizing cs n with
  | nil =>
    constructor
    · intro h
      cases h
      exact ⟨[], rfl, rfl⟩
    · rintro ⟨ps, hps, hn⟩
      cases cs with
      | nil =>
        cases hps
        cases hn
        exact .nil
      | cons c cs => cases hps
  | cons u us ih =>
    obtain ⟨unit, seconds⟩ := u
    rw [List.forall_mem_cons] at hplain
    rw [List.map_cons, List.nodup_cons] at hnodup
    have ih {cs : List Char} {n : Nat} := @ih cs hplain.2 hnodup.2 n
    constructor
    · intro h
      cases h with
      | cons hpart hrest =>
        obtain ⟨ps, hps, hm⟩ := ih.mp hrest
        cases hpart with
        | absent =>
          rw [List.nil_append, Nat.zero_mul, Nat.zero_add]
          refine ⟨ps, ?_, hm⟩
          rw [parts?_of_not_begins, hps]
          intro digits rest h
          rw [parts?_eq_none h hplain.1 hplain.2 hnodup.1] at hps
          cases hps
        | present hdigits =>
          rw [List.append_assoc, List.singleton_append,
            parts?_of_begins ⟨hdigits.ne_nil, hdigits.decimal, rfl⟩ hplain.1, hps]
          exact ⟨_, rfl, total_cons_iff.mpr ⟨hdigits.short, _, hm, rfl⟩⟩
    · rintro ⟨ps, hps, hn⟩
      by_cases hbegins : ∃ digits rest, Begins unit digits rest cs
      · obtain ⟨digits, rest, h⟩ := hbegins
        rw [parts?_of_begins h hplain.1, Option.map_eq_some_iff] at hps
        obtain ⟨ps', hps', rfl⟩ := hps
        obtain ⟨hshort, m, hm, rfl⟩ := total_cons_iff.mp hn
        rw [h.eq]
        exact (ih.mpr ⟨ps', hps', hm⟩).cons_present ⟨h.ne_nil, h.decimal, hshort⟩ (unit, seconds)
      · simp only [not_exists] at hbegins
        rw [parts?_of_not_begins hbegins] at hps
        exact (ih.mpr ⟨ps, hps, hn⟩).cons_absent (unit, seconds)

/-! ## 4. Texts -/

theorem Part.eq_nil_or_mem {part : List Char} {n : Nat} (h : Part unit part n) :
    part = [] ∨ unit ∈ part := by
  cases h with
  | absent => exact .inl rfl
  | present => exact .inr (List.mem_append_right _ (List.mem_singleton_self unit))

/-- A text of digits is a duration as a numeral only, as no unit is a digit. -/
theorem written_iff_of_digitLike {n : Nat} (hne : cs ≠ [])
    (hdigits : ∀ c ∈ cs, isDigitLike c = true) :
    Written cs n ↔
      (∀ c ∈ cs, isDecimal c = true) ∧ cs.length ≤ numeralLimit ∧ n = numeralValue cs := by
  constructor
  · intro h
    cases h with
    | seconds h => exact ⟨h.decimal, h.short, rfl⟩
    | units hhours hminutes hseconds _ =>
      exfalso
      simp only [List.forall_mem_append] at hdigits
      obtain ⟨⟨hhour, hminute⟩, hsecond⟩ := hdigits
      have hnil {unit : Char} {part : List Char} {k : Nat} (h : Part unit part k)
          (hunit : isDigitLike unit = false) (hpart : ∀ c ∈ part, isDigitLike c = true) :
          part = [] := by
        refine h.eq_nil_or_mem.resolve_right fun hmem => ?_
        exact Bool.false_ne_true (hunit.symm.trans (hpart _ hmem))
      rw [hnil hhours (by decide) hhour, hnil hminutes (by decide) hminute,
        hnil hseconds (by decide) hsecond] at hne
      exact hne rfl
  · rintro ⟨hdecimal, hshort, rfl⟩
    exact .seconds ⟨hne, hdecimal, hshort⟩

/-- Any other text is a duration in units only. -/
theorem written_iff_of_not_digitLike {n : Nat}
    (h : ¬ (cs ≠ [] ∧ ∀ c ∈ cs, isDigitLike c = true)) :
    Written cs n ↔ Parts units cs n ∧ cs ≠ [] := by
  rw [parts_units_iff]
  constructor
  · intro hwritten
    cases hwritten with
    | seconds hdigits =>
      exact absurd ⟨hdigits.ne_nil, fun c hc => isDigitLike_of_decimal (hdigits.decimal c hc)⟩ h
    | units hhours hminutes hseconds hne =>
      exact ⟨⟨_, _, _, _, _, _, hhours, hminutes, hseconds, rfl, rfl⟩, hne⟩
  · rintro ⟨⟨hours, minutes, seconds, h, m, s, hhours, hminutes, hseconds, rfl, rfl⟩, hne⟩
    exact .units hhours hminutes hseconds hne

/-- **The durations that texts are read as.** -/
theorem ofText_eq_ok_iff {s : String} {n : Nat} :
    ofText s = .ok n ↔ Written (trim isBlank s.toList) n := by
  rw [ofText, stripBlank, String.toList_ofList]
  generalize trim isBlank s.toList = cs
  split
  · rename_i hdigits
    rw [Bool.and_eq_true, Bool.not_eq_true', List.isEmpty_eq_false_iff, List.all_eq_true]
      at hdigits
    rw [written_iff_of_digitLike hdigits.1 hdigits.2]
    have hread {k : Int} := readInteger_eq_ok_iff (n := k) hdigits.1 hdigits.2
    cases hinteger : readInteger (String.ofList cs) with
    | ok k =>
      obtain ⟨hdecimal, hshort, rfl⟩ := hread.mp hinteger
      rw [Except.ok.injEq, Int.toNat_natCast, and_iff_right hdecimal, and_iff_right hshort]
      exact eq_comm
    | error e =>
      refine iff_of_false (fun h => ?_) ?_
      · cases h
      · rintro ⟨hdecimal, hshort, -⟩
        cases hinteger.symm.trans (hread.mpr ⟨hdecimal, hshort, rfl⟩)
  · rename_i hdigits
    rw [Bool.and_eq_true, Bool.not_eq_true', List.isEmpty_eq_false_iff, List.all_eq_true]
      at hdigits
    rw [written_iff_of_not_digitLike hdigits, parts_iff (by decide) (by decide)]
    have hnil : parts? units cs = some [] ↔ cs = [] := parts?_eq_nil_iff (by decide)
    split
    · rename_i p ps hparts
      have hne : cs ≠ [] := by
        rw [Ne, ← hnil, hparts]
        rintro ⟨⟩
      rw [hparts, and_iff_left hne]
      refine ⟨fun h => ⟨_, rfl, h⟩, ?_⟩
      rintro ⟨_, h, hn⟩
      cases h
      exact hn
    · rename_i hparts
      refine iff_of_false (fun h => ?_) ?_
      · cases h
      · rintro ⟨⟨ps, hps, -⟩, hne⟩
        cases ps with
        | nil => exact hne (hnil.mp hps)
        | cons p ps => exact hparts p ps hps

/-- Why a text is no duration: it has the form of none, or digits in it are no number. -/
inductive Refused (s : String) : DurationError → Prop
  | unreadable : Refused s (.unreadable (.string s))
  | malformed (h : ∀ c ∈ trim isBlank s.toList, isDigitLike c = true) :
      Refused s (.numeral (.malformed (stripBlank s)))
  | tooLong {k : Nat} (h : numeralLimit < k) : Refused s (.numeral (.tooLong k))

theorem error_of_total {ps : List (List Char × Nat)} {e : DurationError}
    (h : total ps = .error e) : ∃ k, numeralLimit < k ∧ e = .numeral (.tooLong k) := by
  induction ps with
  | nil => cases h
  | cons p ps ih =>
    obtain ⟨digits, seconds⟩ := p
    rw [total, numeral] at h
    split at h
    · rename_i hlong
      exact ⟨_, hlong, (Except.error.inj h).symm⟩
    · cases htotal : total ps with
      | error e' =>
        rw [htotal] at h
        cases h
        exact ih htotal
      | ok m =>
        rw [htotal] at h
        cases h

theorem refused_of_ofText {s : String} {e : DurationError} (h : ofText s = .error e) :
    Refused s e := by
  rw [ofText, stripBlank, String.toList_ofList] at h
  split at h
  · rename_i hdigits
    rw [Bool.and_eq_true, List.all_eq_true] at hdigits
    split at h
    · cases h
    · rename_i e' herror
      cases h
      rcases error_of_readInteger hdigits.2 herror with rfl | ⟨k, hk, rfl⟩
      · exact .malformed hdigits.2
      · exact .tooLong hk
  · split at h
    · obtain ⟨k, hk, rfl⟩ := error_of_total h
      exact .tooLong hk
    · cases h
      exact .unreadable

/-! ## 5. One unit alone -/

theorem parts_nil (us : List (Char × Nat)) : Parts us [] 0 := by
  induction us with
  | nil => exact .nil
  | cons u us ih => exact ih.cons_absent u

/-- All units but one are left out. -/
theorem parts_unit (h : Numeral digits) (hunit : (unit, seconds) ∈ us) :
    Parts us (digits ++ [unit]) (numeralValue digits * seconds) := by
  induction us with
  | nil => cases hunit
  | cons u us ih =>
    rcases List.mem_cons.mp hunit with rfl | hrest
    · exact (parts_nil us).cons_present h (unit, seconds)
    · exact (ih hrest).cons_absent u

/-- **Digits before a unit** give as many times the seconds of the unit. -/
theorem ofText_unit (hne : digits ≠ []) (hdigits : ∀ c ∈ digits, '0' ≤ c ∧ c ≤ '9')
    (hlength : digits.length ≤ numeralLimit) (hunit : (unit, seconds) ∈ units) :
    ofText (String.ofList (digits ++ [unit])) = .ok (numeralValue digits * seconds) := by
  have hdecimal : ∀ c ∈ digits, isDecimal c = true := by
    intro c hc
    rw [isDecimal, digitValue?, if_pos (hdigits c hc)]
    rfl
  obtain ⟨hlike, hplain⟩ : isDigitLike unit = false ∧ isBlank unit = false := by
    have hall : ∀ u ∈ units, isDigitLike u.1 = false ∧ isBlank u.1 = false := by decide
    exact hall _ hunit
  have hstripped : Stripped isBlank (digits ++ [unit]) (digits ++ [unit]) := by
    refine stripped_self (fun c hc => ?_) fun c hc => ?_
    · rw [List.head?_append_of_ne_nil _ hne] at hc
      exact isBlank_of_digitLike (isDigitLike_of_decimal (hdecimal c (List.mem_of_mem_head? hc)))
    · rw [List.getLast?_concat] at hc
      cases hc
      exact hplain
  have hmixed : ¬ (digits ++ [unit] ≠ [] ∧ ∀ c ∈ digits ++ [unit], isDigitLike c = true) := by
    rintro ⟨-, h⟩
    have := h unit (List.mem_append_right _ (List.mem_singleton_self unit))
    exact Bool.false_ne_true (hlike.symm.trans this)
  rw [ofText_eq_ok_iff, String.toList_ofList, ← stripped_iff.mp hstripped,
    written_iff_of_not_digitLike hmixed]
  exact ⟨parts_unit ⟨hne, hdecimal, hlength⟩ hunit,
    List.append_ne_nil_of_right_ne_nil _ (List.cons_ne_nil _ _)⟩

example : ofText "5m" = .ok 300 := by decide

/-! ## 6. Documents -/

theorem Written.ne_nil {n : Nat} (h : Written cs n) : cs ≠ [] := by
  cases h with
  | seconds h => exact h.ne_nil
  | units _ _ _ hne => exact hne

theorem ofJson_string_iff {s : String} {n : Nat} :
    ofJson (.string s) = .ok (some n) ↔ Written (trim isBlank s.toList) n := by
  rw [← ofText_eq_ok_iff, ofJson]
  split
  · rename_i hempty
    rw [String.isEmpty_iff] at hempty
    refine iff_of_false (fun h => ?_) fun h => ?_
    · cases h
    · rw [hempty] at h
      exact (ofText_eq_ok_iff.mp h).ne_nil rfl
  · cases ofText s with
    | ok k => simp [Except.map]
    | error e => simp [Except.map]

theorem ofJson_int_of_nonneg {n : Int} (h : 0 ≤ n) : ofJson (.int n) = .ok (some n.toNat) :=
  if_neg (Int.not_lt.mpr h)

theorem ofJson_int_of_neg {n : Int} (h : n < 0) : ofJson (.int n) = .error (.negative (.int n)) :=
  if_pos h

/-- **Exactly the durations are read.**  Of the texts these are the ones of the grammar, once the
blanks around them are dropped, with the seconds that the grammar gives them; any other text that is
not empty is refused.  A whole number is its own duration unless it is negative, and truth values,
lists and objects are none.  What was read is read again as it is. -/
theorem read_by_grammar :
    (∀ s t, Stripped isBlank s.toList t →
      ∀ n, ofJson (.string s) = .ok (some n) ↔ Written t n) ∧
    (∀ s, s ≠ "" → (∀ t n, Stripped isBlank s.toList t → ¬ Written t n) →
      ∃ e, ofJson (.string s) = .error e ∧ Refused s e) ∧
    (∀ (n : Int) (k : Nat), ofJson (.int n) = .ok (some k) ↔ n = k) ∧
    (∀ n < 0, ofJson (.int n) = .error (.negative (.int n))) ∧
    (∀ b, ofJson (.bool b) = .error (.unreadable (.bool b))) ∧
    (∀ items, ofJson (.array items) = .error (.unreadable (.array items))) ∧
    (∀ members, ofJson (.object members) = .error (.unreadable (.object members))) ∧
    ∀ v n, ofJson v = .ok (some n) → ofJson (.int n) = .ok (some n) := by
  refine ⟨?_, ?_, ?_, fun n hn => ofJson_int_of_neg hn, fun _ => rfl, fun _ => rfl, fun _ => rfl,
    fun _ n _ => ofJson_int_of_nonneg (Int.natCast_nonneg n)⟩
  · intro s t ht n
    rw [stripped_iff.mp ht]
    exact ofJson_string_iff
  · intro s hs hnot
    have hnot (n : Nat) : ofText s ≠ .ok n := fun h =>
      hnot _ n (stripped_trim _ _) (ofText_eq_ok_iff.mp h)
    cases htext : ofText s with
    | ok n => exact absurd htext (hnot n)
    | error e =>
      refine ⟨e, ?_, refused_of_ofText htext⟩
      rw [ofJson, if_neg (by rwa [String.isEmpty_iff]), htext]
      rfl
  · intro n k
    rcases Int.lt_or_le n 0 with hneg | hnonneg
    · rw [ofJson_int_of_neg hneg]
      refine iff_of_false (fun h => ?_) fun h => ?_
      · cases h
      · exact absurd hneg (h ▸ Int.not_lt.mpr (Int.natCast_nonneg k))
    · rw [ofJson_int_of_nonneg hnonneg, Except.ok.injEq, Option.some.injEq]
      omega

/-- An hour and a half in digits of two scripts, between blanks; units in another order; and a
number below zero. -/
theorem read_by_grammar_mixed :
    (Stripped isBlank "\t1h٣٠m\n".toList "1h٣٠m".toList ∧ Written "1h٣٠m".toList 5400 ∧
      ofJson (.string "\t1h٣٠m\n") = .ok (some 5400)) ∧
    (∃ e, ofJson (.string "30m1h") = .error e ∧ Refused "30m1h" e) ∧
    ofJson (.int (-1)) = .error (.negative (.int (-1))) := by
  obtain ⟨htexts, hrefused, -, hnegative, -⟩ := read_by_grammar
  have hstripped : Stripped isBlank "\t1h٣٠m\n".toList "1h٣٠m".toList :=
    stripped_iff.mpr (by decide +kernel)
  have hwritten : Written "1h٣٠m".toList 5400 := by
    have hone : Numeral ['1'] := ⟨by decide, List.all_eq_true.mp (by decide), by decide⟩
    have hthirty : Numeral ['٣', '٠'] := ⟨by decide, List.all_eq_true.mp (by decide), by decide⟩
    have hhours : Part 'h' ['1', 'h'] 1 := .present hone
    have hminutes : Part 'm' ['٣', '٠', 'm'] 30 := .present hthirty
    exact .units hhours hminutes .absent (by decide)
  refine ⟨⟨hstripped, hwritten, (htexts _ _ hstripped _).mpr hwritten⟩,
    hrefused _ (by decide) fun t n ht hn => ?_, hnegative (-1) (by decide)⟩
  have hother : ofJson (.string "30m1h") = .error (.unreadable (.string "30m1h")) := by
    decide +kernel
  cases hother.symm.trans ((htexts _ t ht n).mpr hn)

end Steward.Duration
