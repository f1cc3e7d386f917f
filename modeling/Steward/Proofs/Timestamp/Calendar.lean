import Steward.Timestamp.Count

/-!
# Every day is a date

A day is counted in eras of 400 years, and a day of an era in centuries, in fours of years, in years
and in days of a year that begins with March (`exists_parts`).  All of these are full but for the
last ones, and what they leave over is the leap day; so each day of the years 0 to 9999 is a date of
the calendar (`dateOfDays_mem`).
-/

namespace Steward.Timestamp

/-! ## 1. Days of an era -/

/-- The parts of a day of an era.  Only the last year of four has a last day, and of the last four
years of a century only those of the last century. -/
structure Parts (d century four year day : Nat) : Prop where
  sum : d = 36524 * century + 1461 * four + 365 * year + day
  century_le : century ≤ 3
  four_le : four ≤ 24
  year_le : year ≤ 3
  day_le : day ≤ 365
  leap : day = 365 → year = 3 ∧ (four = 24 → century = 3)

theorem exists_parts {d : Nat} (h : d < 146097) :
    ∃ century four year day, Parts d century four year day := by
  have hcentury : 36524 * min (d / 36524) 3 ≤ d := by omega
  obtain ⟨rest, hrest⟩ := Nat.exists_eq_add_of_le hcentury
  have hyear : 365 * min (rest % 1461 / 365) 3 ≤ rest % 1461 := by omega
  obtain ⟨day, hday⟩ := Nat.exists_eq_add_of_le hyear
  exact ⟨min (d / 36524) 3, rest / 1461, min (rest % 1461 / 365) 3, day,
    by omega, by omega, by omega, by omega, by omega, by omega⟩

namespace Parts

variable {d century four year day : Nat}

/-- The year of the era that a day of it lies in. -/
theorem yearOfEra (h : Parts d century four year day) :
    (d - d / 1460 + d / 36524 - d / 146096) / 365 = 100 * century + 4 * four + year := by
  obtain ⟨hsum, hcentury, hfour, hyear, hday, hleap⟩ := h
  -- the quotients count the leap days before, up to one
  have hcenturies : d / 36524 - d / 146096 = century ∧ d / 146096 ≤ d / 36524 := by omega
  have hfours : d / 1460 = 25 * century + four ∧ day < 365 ∨
      d / 1460 = 25 * century + four + 1 ∧ 0 < day := by
    omega
  generalize d / 36524 = centuries at hcenturies ⊢
  generalize d / 146096 = eras at hcenturies ⊢
  generalize d / 1460 = fours at hfours ⊢
  omega

/-- The day of its year. -/
theorem dayOfYear (h : Parts d century four year day) :
    d - (365 * (100 * century + 4 * four + year) + (100 * century + 4 * four + year) / 4 -
      (100 * century + 4 * four + year) / 100) = day := by
  obtain ⟨hsum, hcentury, hfour, hyear, hday, hleap⟩ := h
  omega

end Parts

/-! ## 2. Days of a year -/

/-- A leap year has no shorter months. -/
theorem daysInMonth_le {year year' : Nat} (h : isLeap year = true → isLeap year' = true)
    (month : Nat) : daysInMonth year month ≤ daysInMonth year' month := by
  rw [daysInMonth, daysInMonth]
  split
  · cases hleap : isLeap year with
    | false =>
      have hshort : 28 ≤ if isLeap year' then 29 else 28 := by split <;> decide
      exact hshort
    | true => exact Nat.le_of_eq (congrArg (fun b => if b = true then 29 else 28) (h hleap).symm)
  · exact Nat.le_refl _

/-- Month and day of a day of a year that begins with March and is no longer than it has to be. -/
theorem day_mem : ∀ day ≤ 365,
    let shifted := (5 * day + 2) / 153
    let month := if shifted < 10 then shifted + 3 else shifted - 9
    (1 ≤ month ∧ month ≤ 12) ∧
      day - (153 * shifted + 2) / 5 + 1 ≤ daysInMonth (if day = 365 then 4 else 1) month ∧
      (month ≤ 2 ↔ 306 ≤ day) := by
  decide +kernel

/-! ## 3. Dates -/

/-- **Every day from the year 0 to the year 9999 is a date.** -/
theorem dateOfDays_mem {days : Int} (hfirst : -719528 ≤ days) (hlast : days ≤ 2932896) :
    let (year, month, day) := dateOfDays days
    year ≤ 9999 ∧ (1 ≤ month ∧ month ≤ 12) ∧ (1 ≤ day ∧ day ≤ daysInMonth year month) := by
  obtain ⟨z, hz⟩ : ∃ z, z = days + 719468 := ⟨_, rfl⟩
  have hday : (z % 146097).toNat < 146097 := by omega
  have hera : -1 ≤ z / 146097 ∧ z / 146097 ≤ 24 := by omega
  obtain ⟨century, four, year, day, hparts⟩ := exists_parts hday
  obtain ⟨hmonth, hle, hearly⟩ := day_mem day hparts.day_le
  simp only [dateOfDays, ← hz, hparts.yearOfEra, hparts.dayOfYear]
  generalize (if (5 * day + 2) / 153 < 10 then (5 * day + 2) / 153 + 3
    else (5 * day + 2) / 153 - 9) = month at hmonth hle hearly ⊢
  obtain ⟨hsum, hcentury, hfour, hyear, hday, hleap⟩ := hparts
  obtain ⟨n, hn⟩ : ∃ n : Nat, (((100 * century + 4 * four + year : Nat) : Int) +
      z / 146097 * 400 + if month ≤ 2 then 1 else 0) = n := by
    refine Int.eq_ofNat_of_zero_le ?_
    -- the one era before has only January and February of the year 0
    by_cases hbefore : z / 146097 < 0 <;> split <;> omega
  refine ⟨?_, hmonth, Nat.le_add_left _ _, Nat.le_trans hle (daysInMonth_le (fun h => ?_) month)⟩
  · split at hn <;> omega
  · rw [hn, Int.toNat_natCast]
    by_cases hend : day = 365
    · obtain ⟨rfl, hlast⟩ := hleap hend
      rw [if_pos (hearly.mpr (by omega))] at hn
      have hfourth : n % 4 = 0 := by omega
      have hcentury : ¬ n % 100 = 0 ∨ n % 400 = 0 := by omega
      simpa [isLeap, hfourth] using hcentury
    · rw [if_neg hend] at h
      cases h

end Steward.Timestamp
