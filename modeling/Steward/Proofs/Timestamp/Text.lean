import Mathlib.Algebra.Group.Nat.Defs
import Mathlib.Data.List.TakeDrop
import Mathlib.Data.List.TakeWhile
import Steward.Timestamp.Reading

/-!
# Timestamps are read back as they were written

The text of a timestamp has a fixed number of digits for each part, and reading takes the parts off
one by one: two digits at a time, the digits of a fraction, and the offset.
-/

namespace Steward.Timestamp

/-! ## 1. Padded numbers -/

/-- The last digit comes off the end. -/
theorem padded_succ {width : Nat} (hw : 0 < width) (n : Nat) :
    padded (width + 1) n = padded width (n / 10) ++ [(n % 10).digitChar] := by
  rw [padded, padded]
  by_cases hn : n < 10
  · rw [Nat.toDigits_of_lt_base hn, Nat.div_eq_of_lt hn, Nat.toDigits_zero, Nat.mod_eq_of_lt hn]
    obtain ⟨w, rfl⟩ := Nat.exists_eq_succ_of_ne_zero hw.ne'
    simp [List.replicate_succ']
  · rw [Nat.toDigits_of_base_le (by decide) (Nat.le_of_not_lt hn), List.length_append,
      List.length_singleton, Nat.add_sub_add_right, List.append_assoc]

theorem padded_one {n : Nat} (h : n < 10) : padded 1 n = [n.digitChar] := by
  rw [padded, Nat.toDigits_of_lt_base h]
  rfl

theorem padded_two {n : Nat} (h : n < 100) :
    padded 2 n = [(n / 10).digitChar, (n % 10).digitChar] := by
  rw [padded_succ (by decide), padded_one (by omega)]
  rfl

/-- Four digits are two and two. -/
theorem padded_four (n : Nat) : padded 4 n = padded 2 (n / 100) ++ padded 2 (n % 100) := by
  have htens : n / 10 % 10 = n % 100 / 10 := by omega
  have hones : n % 10 = n % 100 % 10 := by omega
  rw [padded_succ (by decide), padded_succ (by decide), Nat.div_div_eq_div_mul, htens, hones,
    padded_two (n := n % 100) (by omega), List.append_assoc]
  rfl

theorem length_padded {width n : Nat} (hw : 0 < width) (h : n < 10 ^ width) :
    (padded width n).length = width := by
  induction width, hw using Nat.le_induction generalizing n with
  | base =>
    rw [padded_one h]
    rfl
  | succ w hw ih =>
    rw [padded_succ hw, List.length_append, ih (by rw [Nat.pow_succ] at h; omega)]
    rfl

/-! ## 2. Digits -/

theorem digit?_digitChar : ∀ d < 10, digit? d.digitChar = some d := by decide

theorem digitValue?_digitChar : ∀ d < 10, Text.digitValue? d.digitChar = some d := by decide

theorem digitChar_range : ∀ d < 10, '0' ≤ d.digitChar ∧ d.digitChar ≤ '9' := by decide

theorem digit_of_mem_padded {width n : Nat} (hw : 0 < width) (h : n < 10 ^ width) {c : Char}
    (hc : c ∈ padded width n) : '0' ≤ c ∧ c ≤ '9' := by
  induction width, hw using Nat.le_induction generalizing n with
  | base =>
    rw [padded_one h, List.mem_singleton] at hc
    exact hc ▸ digitChar_range n h
  | succ w hw ih =>
    rw [padded_succ hw, List.mem_append, List.mem_singleton] at hc
    rcases hc with hc | rfl
    · exact ih (by rw [Nat.pow_succ] at h; omega) hc
    · exact digitChar_range _ (Nat.mod_lt _ (by decide))

theorem numeralValue_padded {width n : Nat} (hw : 0 < width) (h : n < 10 ^ width) :
    Text.numeralValue (padded width n) = n := by
  induction width, hw using Nat.le_induction generalizing n with
  | base =>
    rw [padded_one h, Text.numeralValue, List.foldl_cons, digitValue?_digitChar n h]
    simp
  | succ w hw ih =>
    rw [padded_succ hw, Text.numeralValue_append_singleton,
      ih (by rw [Nat.pow_succ] at h; omega), digitValue?_digitChar _ (Nat.mod_lt _ (by decide))]
    exact Nat.div_add_mod n 10

theorem twoDigits?_padded {n : Nat} (h : n < 100) (rest : List Char) :
    twoDigits? (padded 2 n ++ rest) = some (n, rest) := by
  rw [padded_two h]
  simp [twoDigits?, digit?_digitChar (n / 10) (by omega), digit?_digitChar (n % 10) (by omega),
    Nat.div_add_mod]

/-! ## 3. The parts of a timestamp -/

theorem ok_bind {α β : Type} (a : α) (f : α → Except Problem β) : (Except.ok a >>= f) = f a := rfl

theorem expect?_self (c : Char) (rest : List Char) : expect? c (c :: rest) = some rest := by
  rw [expect?, if_pos (beq_self_eq_true c)]

theorem length_le_byteCount (cs : List Char) : cs.length ≤ byteCount cs := by
  induction cs with
  | nil => exact Nat.zero_le _
  | cons c cs ih =>
    have hc : 1 ≤ c.utf8Size := c.utf8Size_pos
    rw [byteCount] at ih ⊢
    rw [List.foldr_cons, List.length_cons]
    omega

/-- The characters of a date. -/
def dateChars (t : Timestamp) : List Char :=
  padded 4 t.year ++ '-' :: padded 2 t.month ++ '-' :: padded 2 t.day

theorem date_dateChars {t : Timestamp} (h : t.Valid) (rest : List Char) :
    date (t.dateChars ++ rest) = .ok ((t.year, t.month, t.day), rest) := by
  obtain ⟨⟨-, hyear⟩, hmonth, hday, -⟩ := h
  have hdays : daysInMonth t.year t.month ≤ 31 := by
    rw [daysInMonth]
    split_ifs <;> decide
  have hsize : ¬ byteCount (t.dateChars ++ rest) < dateSize := by
    have hle := length_le_byteCount (t.dateChars ++ rest)
    have hlen : (t.dateChars ++ rest).length = 10 + rest.length := by
      simp only [dateChars, List.length_append, List.length_cons,
        @length_padded 4 t.year (by decide) (by omega),
        @length_padded 2 t.month (by decide) (by omega),
        @length_padded 2 t.day (by decide) (by omega)]
    rw [dateSize]
    omega
  have hchars : t.dateChars ++ rest =
      padded 2 (t.year / 100) ++ (padded 2 (t.year % 100) ++ ('-' ::
        (padded 2 t.month ++ ('-' :: (padded 2 t.day ++ rest))))) := by
    simp [dateChars, padded_four]
  have hmonth' : ¬ (t.month < 1 ∨ 12 < t.month) := by omega
  have hday' : ¬ (t.day < 1 ∨ daysInMonth t.year t.month < t.day) := by omega
  rw [date, if_neg hsize, hchars]
  simp only [twoDigits?_padded (n := t.year / 100) (by omega), orProblem, ok_bind,
    twoDigits?_padded (n := t.year % 100) (by omega), expect?_self,
    twoDigits?_padded (n := t.month) (by omega), twoDigits?_padded (n := t.day) (by omega),
    Nat.div_add_mod, if_neg hmonth', if_neg hday']
  rfl

/-- The characters of a fraction of a second. -/
def fractionChars (microsecond : Nat) : List Char :=
  if microsecond = 0 then [] else '.' :: padded 6 microsecond

/-- What follows a fraction does not go on with it. -/
def EndsFraction (rest : List Char) : Prop :=
  ∀ c ∈ rest.head?, ¬ ('0' ≤ c ∧ c ≤ '9') ∧ c ≠ '.' ∧ c ≠ ','

theorem endsFraction_offsetText (o : Option Int) : EndsFraction (offsetText o) := by
  intro c hc
  rcases o with _ | o
  · cases hc
  rw [offsetText] at hc
  split_ifs at hc
  · cases hc
    decide
  · cases hc
    decide
  · cases hc
    decide

theorem span_padded {n : Nat} (h : n < 10 ^ 6) {rest : List Char} (hrest : EndsFraction rest) :
    ((padded 6 n ++ rest).span fun d => '0' ≤ d && d ≤ '9') = (padded 6 n, rest) := by
  have hdigits : ∀ c ∈ padded 6 n, ('0' ≤ c && c ≤ '9') = true := by
    intro c hc
    have hrange := digit_of_mem_padded (by decide) h hc
    simp [hrange]
  rw [List.span_eq_takeWhile_dropWhile, List.takeWhile_append_of_pos hdigits,
    List.dropWhile_append_of_pos hdigits]
  cases rest with
  | nil => simp
  | cons c rest =>
    have hc : ('0' ≤ c && c ≤ '9') = false := by
      have hnot := (hrest c rfl).1
      simp only [Bool.and_eq_false_iff, decide_eq_false_iff_not]
      exact not_and_or.mp hnot
    simp [hc]

theorem fraction?_fractionChars {n : Nat} (h : n < 10 ^ 6) {rest : List Char}
    (hrest : EndsFraction rest) : fraction? (fractionChars n ++ rest) = some (n, rest) := by
  rw [fractionChars]
  split_ifs with hn
  · subst hn
    cases rest with
    | nil => rfl
    | cons c rest =>
      obtain ⟨-, hpoint, hcomma⟩ := hrest c rfl
      simp [fraction?, hpoint, hcomma]
  · have hlength : (padded 6 n).length = 6 := length_padded (by decide) h
    have hne : padded 6 n ≠ [] := by
      intro hnil
      rw [hnil] at hlength
      cases hlength
    have hvalue : Text.numeralValue (padded 6 n) = n := numeralValue_padded (by decide) h
    rw [List.cons_append, fraction?, span_padded h hrest]
    cases hp : padded 6 n with
    | nil => exact absurd hp hne
    | cons d ds =>
      rw [hp] at hlength hvalue
      have htake : (d :: ds).take 6 = d :: ds := List.take_of_length_le hlength.le
      simp [htake, hvalue, hlength]

/-- An offset of some minutes to the west or to the east. -/
theorem offset?_minutes (west : Bool) {n : Nat} (h : n < 1440) :
    offset? ((if west then '-' else '+') :: (padded 2 (n / 60) ++ ':' :: padded 2 (n % 60))) =
      some (some (if west then -(n * 60 : Int) else n * 60)) := by
  have hvalue : ((n / 60 : Nat) : Int) * 3600 + ((n % 60 : Nat) : Int) * 60 = n * 60 := by omega
  have hhours := twoDigits?_padded (n := n / 60) (by omega) (':' :: padded 2 (n % 60))
  have hminutes := twoDigits?_padded (n := n % 60) (by omega) []
  have hrange : ¬ 60 ≤ n % 60 := by omega
  rw [List.append_nil] at hminutes
  rw [padded_two (n := n / 60) (by omega)] at hhours ⊢
  rw [List.cons_append, List.cons_append, List.nil_append] at hhours ⊢
  cases west <;> simp [offset?, hhours, hminutes, hrange, ← hvalue]

theorem offset?_offsetText {offset : Option Int}
    (h : ∀ o ∈ offset, o.natAbs < 86400 ∧ o.natAbs % 60 = 0) :
    offset? (offsetText offset) = some offset := by
  rcases offset with _ | o
  · rfl
  obtain ⟨hday, hminute⟩ := h o rfl
  rw [offsetText]
  split_ifs with hzero hsign
  · rw [hzero]
    rfl
  · have hoffset : -(((o.natAbs / 60 : Nat) : Int) * 60) = o := by omega
    have hread := offset?_minutes true (n := o.natAbs / 60) (by omega)
    rw [if_pos rfl, if_pos rfl, hoffset] at hread
    exact hread
  · have hoffset : ((o.natAbs / 60 : Nat) : Int) * 60 = o := by omega
    have hread := offset?_minutes false (n := o.natAbs / 60) (by omega)
    rw [if_neg Bool.false_ne_true, if_neg Bool.false_ne_true, hoffset] at hread
    exact hread

/-! ## 4. The whole -/

theorem ofCalendar?_chars {t : Timestamp} (h : t.Valid) : ofCalendar? t.chars = some t := by
  have htime := h.2.2.2
  obtain ⟨hhour, hminute, hsecond, hmicro, hoffset⟩ := h.2.2.2
  have hchars : t.chars = t.dateChars ++ 'T' :: (padded 2 t.hour ++ (':' ::
      (padded 2 t.minute ++ (':' :: (padded 2 t.second ++
        (fractionChars t.microsecond ++ offsetText t.offset)))))) := by
    simp [chars, dateChars, fractionChars]
  rw [ofCalendar?, hchars, date_dateChars h]
  simp [twoDigits?_padded (n := t.hour) (by omega), twoDigits?_padded (n := t.minute) (by omega),
    twoDigits?_padded (n := t.second) (by omega), expect?_self, seconds?,
    fraction?_fractionChars hmicro (endsFraction_offsetText t.offset), offset?_offsetText hoffset]
  exact htime

/-- **What is written is read back.** -/
theorem ofText_text {t : Timestamp} (h : t.Valid) : ofText t.text = .ok t := by
  have hyear : t.year ≠ 0 := by
    have := h.1.1
    omega
  rw [ofText, text, String.toList_ofList, ofCalendar?_chars h]
  exact if_neg hyear

end Steward.Timestamp
