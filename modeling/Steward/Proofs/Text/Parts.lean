import Mathlib.Data.List.DropRight
import Mathlib.Data.List.TakeDrop
import Mathlib.Data.List.TakeWhile
import Steward.Text.Blank
import Steward.Text.Cut

/-!
# Parts of a text

Trimming leaves what stands between the characters of a class at both ends of a text: it begins and
ends with none of them, and there is only one such part (`stripped_iff`).  Cutting splits a text at
the first place of a character: nothing before the cut is the character, and what is put around it
is found again (`cut_eq_some_iff`).
-/

namespace Steward.Text

/-! ## 1. Between blanks -/

section Blanks

variable {p : Char → Bool} {cs inner : List Char}

/-- A part of a text that has the characters of a class around it, and neither begins nor ends with
one. -/
structure Stripped (p : Char → Bool) (cs inner : List Char) : Prop where
  around : ∃ left right, cs = left ++ inner ++ right ∧
    (∀ c ∈ left, p c = true) ∧ ∀ c ∈ right, p c = true
  first : ∀ c ∈ inner.head?, p c = false
  last : ∀ c ∈ inner.getLast?, p c = false

/-- Where no character of the class is at either end, the whole text is left. -/
theorem stripped_self (hfirst : ∀ c ∈ cs.head?, p c = false)
    (hlast : ∀ c ∈ cs.getLast?, p c = false) : Stripped p cs cs :=
  ⟨⟨[], [], (List.append_nil cs).symm, List.forall_mem_nil _, List.forall_mem_nil _⟩, hfirst, hlast⟩

theorem dropWhile_of_head? (h : ∀ c ∈ inner.head?, p c = false) : inner.dropWhile p = inner := by
  cases inner with
  | nil => rfl
  | cons c rest => exact List.dropWhile_cons_of_neg (Bool.eq_false_iff.mp (h c rfl))

theorem dropRight_of_getLast? (h : ∀ c ∈ inner.getLast?, p c = false) :
    dropRight p inner = inner := by
  rw [dropRight, dropWhile_of_head? (by rwa [List.head?_reverse]), List.reverse_reverse]

/-- What is dropped from the right end is of the class. -/
theorem exists_dropRight (p : Char → Bool) (cs : List Char) :
    ∃ right, cs = dropRight p cs ++ right ∧ ∀ c ∈ right, p c = true := by
  refine ⟨cs.rtakeWhile p, ?_, fun c hc => List.mem_rtakeWhile_imp hc⟩
  rw [dropRight, List.rtakeWhile, ← List.reverse_append, List.takeWhile_append_dropWhile,
    List.reverse_reverse]

/-- What is left does not end in one of the class. -/
theorem getLast?_dropRight {c : Char} (h : c ∈ (dropRight p cs).getLast?) : p c = false := by
  rw [dropRight, List.getLast?_reverse] at h
  cases hdrop : cs.reverse.dropWhile p with
  | nil =>
    rw [hdrop] at h
    cases h
  | cons d ds =>
    rw [hdrop] at h
    cases h
    exact head_dropWhile hdrop

theorem trim_eq_dropRight (p : Char → Bool) (cs : List Char) :
    trim p cs = dropRight p (cs.dropWhile p) := rfl

theorem stripped_trim (p : Char → Bool) (cs : List Char) : Stripped p cs (trim p cs) where
  around := by
    obtain ⟨right, hright, hall⟩ := exists_dropRight p (cs.dropWhile p)
    refine ⟨cs.takeWhile p, right, ?_, fun c hc => List.mem_takeWhile_imp hc, hall⟩
    rw [trim_eq_dropRight, List.append_assoc, ← hright, List.takeWhile_append_dropWhile]
  first c hc := by
    -- what is left begins as the text without its first blanks does
    obtain ⟨right, hright, -⟩ := exists_dropRight p (cs.dropWhile p)
    rw [← trim_eq_dropRight] at hright
    cases htrim : trim p cs with
    | nil =>
      rw [htrim] at hc
      cases hc
    | cons d ds =>
      rw [htrim] at hc hright
      cases hc
      exact head_dropWhile hright
  last c hc := getLast?_dropRight hc

/-- **Trimming leaves what stands between blanks.** -/
theorem stripped_iff : Stripped p cs inner ↔ inner = trim p cs := by
  constructor
  · rintro ⟨⟨left, right, rfl, hleft, hright⟩, hfirst, hlast⟩
    cases inner with
    | nil =>
      have hall : ∀ c ∈ left ++ [] ++ right, p c = true := by
        intro c hc
        rw [List.append_nil] at hc
        exact (List.mem_append.mp hc).elim (hleft c) (hright c)
      rw [trim, List.dropWhile_eq_nil_iff.mpr hall]
      rfl
    | cons c rest =>
      rw [trim, List.append_assoc, List.dropWhile_append_of_pos hleft, List.cons_append,
        List.dropWhile_cons_of_neg (Bool.eq_false_iff.mp (hfirst c rfl)), ← List.cons_append,
        List.reverse_append, List.dropWhile_append_of_pos, ← dropRight,
        dropRight_of_getLast? hlast]
      exact fun d hd => hright d (List.mem_reverse.mp hd)
  · rintro rfl
    exact stripped_trim p cs

end Blanks

/-! ## 2. Around a character -/

section Cuts

variable {c : Char} {cs before after : List Char}

theorem cut_append (h : c ∉ before) : cut c (before ++ c :: after) = (before, some after) := by
  have hbefore : ∀ d ∈ before, (d != c) = true := by
    intro d hd
    rw [bne_iff_ne]
    rintro rfl
    exact h hd
  rw [cut, List.span_eq_takeWhile_dropWhile, List.takeWhile_append_of_pos hbefore,
    List.dropWhile_append_of_pos hbefore]
  simp

theorem cut_eq_self (h : c ∉ cs) : cut c cs = (cs, none) := by
  have hcs : ∀ d ∈ cs, (d != c) = true := by
    intro d hd
    rw [bne_iff_ne]
    rintro rfl
    exact h hd
  rw [cut, List.span_eq_takeWhile_dropWhile, List.takeWhile_eq_self_iff.mpr hcs,
    List.dropWhile_eq_nil_iff.mpr hcs]

/-- A text that has the character is cut around its first place. -/
theorem cut_eq_some_iff :
    cut c cs = (before, some after) ↔ cs = before ++ c :: after ∧ c ∉ before := by
  constructor
  · intro h
    by_cases hmem : c ∈ cs
    · obtain ⟨left, right, rfl, hleft⟩ := List.eq_append_cons_of_mem hmem
      rw [cut_append hleft] at h
      cases h
      exact ⟨rfl, hleft⟩
    · rw [cut_eq_self hmem] at h
      cases h
  · rintro ⟨rfl, h⟩
    exact cut_append h

/-- A text without the character is left whole. -/
theorem eq_of_cut_eq_none (h : cut c cs = (before, none)) : before = cs := by
  by_cases hmem : c ∈ cs
  · obtain ⟨left, right, rfl, hleft⟩ := List.eq_append_cons_of_mem hmem
    rw [cut_append hleft] at h
    cases h
  · rw [cut_eq_self hmem] at h
    exact (congrArg Prod.fst h).symm

theorem afterLast_eq_self (h : c ∉ cs) : afterLast c cs = cs := by
  rw [afterLast, List.takeWhile_eq_self_iff.mpr, List.reverse_reverse]
  intro d hd
  rw [bne_iff_ne]
  rintro rfl
  exact h (List.mem_reverse.mp hd)

end Cuts

end Steward.Text
