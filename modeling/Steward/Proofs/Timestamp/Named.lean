import Steward.Proofs.Fallible
import Steward.Proofs.Timestamp.Calendar
import Steward.Timestamp.Reading

/-!
# What is read can be named

Whatever text or number a timestamp is read from, its fields are those of a date and a time of day
(`valid_of_ofText`, `valid_of_ofCount`, `valid_of_ofBinary`); so it can be written, and read again.
-/

namespace Steward.Timestamp

variable {t t' : Timestamp}

/-! ## 1. Dates of the common era -/

/-- The fields name a point in time, which may be one of the year zero. -/
def Dated (t : Timestamp) : Prop :=
  t.year ≤ 9999 ∧ (1 ≤ t.month ∧ t.month ≤ 12) ∧
  (1 ≤ t.day ∧ t.day ≤ daysInMonth t.year t.month) ∧ t.TimeValid

theorem valid_of_ofCommonEra (ht : t.Dated) (h : t.ofCommonEra = .ok t') : t'.Valid := by
  rw [ofCommonEra] at h
  split at h
  · cases h
  · rename_i hyear
    cases h
    exact ⟨⟨Nat.one_le_iff_ne_zero.mpr hyear, ht.1⟩, ht.2⟩

/-! ## 2. Counts -/

theorem dated_ofUnix {seconds : Int} (hfirst : firstSecond ≤ seconds)
    (hlast : seconds ≤ lastSecond) {microseconds : Nat} (h : microseconds < 1000000) :
    (ofUnix seconds microseconds).Dated := by
  rw [firstSecond] at hfirst
  rw [lastSecond] at hlast
  obtain ⟨hyear, hmonth, hday⟩ := @dateOfDays_mem (seconds / 86400) (by omega) (by omega)
  refine ⟨hyear, hmonth, hday, ?_, ?_, ?_, h, fun o ho => ?_⟩
  · change (seconds % 86400).toNat / 3600 < 24
    omega
  · exact Nat.mod_lt _ (by decide)
  · exact Nat.mod_lt _ (by decide)
  · cases ho
    decide

theorem valid_of_ofMicroseconds {n : Int} (h : ofMicroseconds n = .ok t) : t.Valid := by
  rw [ofMicroseconds] at h
  split at h
  · cases h
  split at h
  · cases h
  · exact valid_of_ofCommonEra (dated_ofUnix (by omega) (by omega) (by omega)) h

theorem valid_of_ofCount {n : Int} (h : ofCount n = .ok t) : t.Valid := valid_of_ofMicroseconds h

theorem valid_of_ofBinary {x : Binary64} (h : ofBinary x = .ok t) : t.Valid := by
  rw [ofBinary] at h
  split at h
  · cases h
  split at h
  · cases h
  · exact valid_of_ofMicroseconds h

/-! ## 3. Texts -/

theorem lt_of_digit? {c : Char} {n : Nat} (h : digit? c = some n) : n < 10 := by
  rw [digit?] at h
  split at h
  · rename_i hc
    have hle : c.toNat ≤ 0x39 := hc.2
    cases h
    omega
  · cases h

theorem lt_of_twoDigits? {cs rest : List Char} {n : Nat} (h : twoDigits? cs = some (n, rest)) :
    n < 100 := by
  unfold twoDigits? at h
  split at h
  · rename_i a b _
    obtain ⟨tens, htens, h⟩ := Option.bind_eq_some_iff.mp h
    obtain ⟨ones, hones, h⟩ := Option.bind_eq_some_iff.mp h
    have := lt_of_digit? htens
    have := lt_of_digit? hones
    cases h
    omega
  · cases h

theorem orProblem_eq_ok {α : Type} {p : Problem} {x : Option α} {a : α}
    (h : orProblem p x = .ok a) : x = some a := by
  cases x with
  | none => cases h
  | some b =>
    cases h
    rfl

/-- A date has a month, and a day of it. -/
theorem date_mem {cs rest : List Char} {year month day : Nat}
    (h : date cs = .ok ((year, month, day), rest)) :
    year ≤ 9999 ∧ (1 ≤ month ∧ month ≤ 12) ∧ (1 ≤ day ∧ day ≤ daysInMonth year month) := by
  unfold date at h
  split at h
  · cases h
  simp only [bind_eq_ok_iff] at h
  obtain ⟨⟨century, _⟩, hcentury, ⟨years, _⟩, hyears, _, -, ⟨_, _⟩, -, _, -, ⟨_, _⟩, -, h⟩ := h
  have := lt_of_twoDigits? (orProblem_eq_ok hcentury)
  have := lt_of_twoDigits? (orProblem_eq_ok hyears)
  split at h
  · cases h
  split at h
  · cases h
  · cases h
    omega

/-- A date with a time of day is one that may be of the year zero. -/
theorem dated_of_ofCalendar? {cs : List Char} (h : ofCalendar? cs = some t) : t.Dated := by
  unfold ofCalendar? at h
  split at h
  · rename_i hdate
    split at h
    · obtain ⟨⟨hour, _⟩, -, h⟩ := Option.bind_eq_some_iff.mp h
      obtain ⟨_, -, h⟩ := Option.bind_eq_some_iff.mp h
      obtain ⟨⟨minute, _⟩, -, h⟩ := Option.bind_eq_some_iff.mp h
      obtain ⟨⟨⟨second, microsecond⟩, _⟩, -, h⟩ := Option.bind_eq_some_iff.mp h
      obtain ⟨offset, -, h⟩ := Option.bind_eq_some_iff.mp h
      dsimp only at h
      split at h
      · rename_i htime
        cases h
        obtain ⟨hyear, hmonth, hday⟩ := date_mem hdate
        exact ⟨hyear, hmonth, hday, htime⟩
      · cases h
    · cases h
  · cases h

theorem valid_of_midnight {cs : List Char} (h : midnight cs = .ok t) : t.Valid := by
  unfold midnight at h
  obtain ⟨⟨⟨year, month, day⟩, rest⟩, hdate, h⟩ := bind_eq_ok_iff.mp h
  dsimp only at h
  split at h
  · cases h
  · obtain ⟨hyear, hmonth, hday⟩ := date_mem hdate
    refine valid_of_ofCommonEra ⟨hyear, hmonth, hday, ?_⟩ h
    simp [TimeValid]

/-- **What a text names can be named.** -/
theorem valid_of_ofText {s : String} (h : ofText s = .ok t) : t.Valid := by
  rw [ofText] at h
  split at h
  · exact valid_of_ofCommonEra (dated_of_ofCalendar? ‹_›) h
  · split at h
    · exact valid_of_ofCount h
    · split at h
      · cases h
        exact valid_of_ofBinary ‹_›
      · cases h
      · exact valid_of_midnight h
    · exact valid_of_midnight h

end Steward.Timestamp
