import Steward.Json.Parser
import Steward.Json.Printer
import Steward.Proofs.Encoding.Utf8

/-!
# Strings come back from their text

A character is written as itself, as a letter after a backslash, as one UTF-16 unit or as two.
Whatever follows it, it is read as that character: the unit of a character is no half of a pair, so
that the unit of the next one is never joined to it.
-/

namespace Steward.Json

/-! ## 1. Units -/

theorem hexValue?_digitChar : ∀ d < 16, hexValue? (Nat.digitChar d) = some d := by decide

/-- The last of at least two digits. -/
theorem hexDigits_succ (width n : Nat) :
    Text.hexDigits (width + 2) n =
      Text.hexDigits (width + 1) (n / 16) ++ [Nat.digitChar (n % 16)] := by
  rw [Text.hexDigits, Text.hexDigits]
  rcases Nat.lt_or_ge n 16 with h | h
  · have hzero : n / 16 = 0 := by omega
    rw [hzero, Nat.mod_eq_of_lt h, Nat.toDigits_of_lt_base h, Nat.toDigits_of_lt_base (by decide)]
    exact congrArg (· ++ _) List.replicate_succ'
  · rw [Nat.toDigits_of_base_le (by decide) h, List.length_append, List.length_singleton,
      ← List.append_assoc, Nat.add_sub_add_right (width + 1) 1]

theorem hexDigits_four {n : Nat} (h : n < 0x10000) :
    Text.hexDigits 4 n =
      [Nat.digitChar (n / 0x1000), Nat.digitChar (n / 0x100 % 16), Nat.digitChar (n / 16 % 16),
        Nat.digitChar (n % 16)] := by
  have hfirst : n / 16 / 16 / 16 = n / 0x1000 := by omega
  have hsecond : n / 16 / 16 = n / 0x100 := by omega
  rw [hexDigits_succ, hexDigits_succ, hexDigits_succ, hfirst, hsecond, Text.hexDigits,
    Nat.toDigits_of_lt_base (by omega)]
  rfl

/-- A unit is read as its number. -/
theorem unit?_hexDigits {n : Nat} (h : n < 0x10000) {rest : List Char} (hrest : rest ≠ []) :
    unit? (Text.hexDigits 4 n ++ rest) = some (n, rest) := by
  have hvalue : ((n / 0x1000 * 16 + n / 0x100 % 16) * 16 + n / 16 % 16) * 16 + n % 16 = n := by
    omega
  rw [hexDigits_four h, List.cons_append, List.cons_append, List.cons_append, List.cons_append,
    List.nil_append, unit?, if_neg (by rwa [List.isEmpty_iff]), hexValue?_digitChar _ (by omega),
    hexValue?_digitChar _ (by omega), hexValue?_digitChar _ (by omega),
    hexValue?_digitChar _ (by omega)]
  exact congrArg (fun m => some (m, rest)) hvalue

theorem unitEscape_append (n : Nat) (rest : List Char) :
    unitEscape n ++ rest = '\\' :: 'u' :: (Text.hexDigits 4 n ++ rest) := rfl

/-! ## 2. Characters -/

/-- The unit of a character stands alone, whatever follows. -/
theorem unitEscape?_one {c : Char} (h : c.toNat < 0x10000) {rest : List Char} (hrest : rest ≠ []) :
    unitEscape? (Text.hexDigits 4 c.toNat ++ rest) = .ok (c, rest) := by
  have hrange := Utf8.toNat_range c
  have halone : loneUnit c.toNat (Text.hexDigits 4 c.toNat ++ rest) rest = .ok (c, rest) := by
    rw [loneUnit, if_neg (by omega), Char.ofNat_toNat]
  rw [unitEscape?, unit?_hexDigits h hrest]
  dsimp only
  split
  · rw [if_neg (by omega), halone]
  · exact halone

/-- Two units are joined to the character that they are a pair for. -/
theorem unitEscape?_pair {c : Char} (h : 0x10000 ≤ c.toNat) {rest : List Char} (hrest : rest ≠ []) :
    unitEscape? (Text.hexDigits 4 (0xD800 + (c.toNat - 0x10000) / 0x400) ++
      '\\' :: 'u' :: (Text.hexDigits 4 (0xDC00 + (c.toNat - 0x10000) % 0x400) ++ rest)) =
        .ok (c, rest) := by
  have hrange := Utf8.toNat_range c
  have hlow : 0xDC00 + (c.toNat - 0x10000) % 0x400 < 0x10000 := by omega
  have hjoined : 0x10000 + (0xD800 + (c.toNat - 0x10000) / 0x400 - 0xD800) * 0x400 +
      (0xDC00 + (c.toNat - 0x10000) % 0x400 - 0xDC00) = c.toNat := by omega
  have hlong : 4 < (Text.hexDigits 4 (0xDC00 + (c.toNat - 0x10000) % 0x400) ++ rest).length := by
    have := List.length_pos_iff.mpr hrest
    rw [hexDigits_four hlow, List.length_append]
    simp only [List.length_cons, List.length_nil]
    omega
  rw [unitEscape?, unit?_hexDigits (by omega) (List.cons_ne_nil _ _)]
  dsimp only
  split
  · next more hmore =>
    rw [List.cons.injEq, List.cons.injEq] at hmore
    rw [← hmore.2.2, if_pos ⟨by omega, by omega, hlong⟩, unit?_hexDigits hlow hrest]
    dsimp only
    rw [if_pos (by omega), hjoined, Char.ofNat_toNat]
  · next hnone => exact absurd rfl (hnone _)

/-- A character before what else a string holds. -/
def before (c : Char) (s : List Char × List Char) : List Char × List Char := (c :: s.1, s.2)

/-- A character is read as itself, whatever follows. -/
theorem parseString_escapedChar (start : List Char) (fuel : Nat) (c : Char) {rest : List Char}
    (hrest : rest ≠ []) :
    parseString start (fuel + 1) (escapedChar c ++ rest) =
      (parseString start fuel rest).map (before c) := by
  have hrange := Utf8.toNat_range c
  have hcode {n : Nat} (h : (c.toNat == n) = true) : c = Char.ofNat n := by
    rw [beq_iff_eq] at h
    rw [← h, Char.ofNat_toNat]
  rw [escapedChar]
  split
  · next h => rw [beq_iff_eq] at h; subst h; rfl
  split
  · next h => rw [beq_iff_eq] at h; subst h; rfl
  split
  · next h => rw [beq_iff_eq] at h; subst h; rfl
  split
  · next h => rw [beq_iff_eq] at h; subst h; rfl
  split
  · next h => rw [beq_iff_eq] at h; subst h; rfl
  split
  · next h => rw [hcode h]; rfl
  split
  · next h => rw [hcode h]; rfl
  split
  · next hquote hbackslash _ _ _ _ _ hplain =>
    rw [beq_iff_eq] at hquote hbackslash
    rw [List.singleton_append, parseString]
    rw [if_neg (by omega)]
    rfl
    · exact hquote
    · exact hbackslash
  split
  · next h =>
    rw [unitEscape_append, parseString, unitEscape?_one h hrest]
    rfl
  · next h =>
    rw [List.append_assoc, unitEscape_append, unitEscape_append, parseString,
      unitEscape?_pair (by omega) hrest]
    rfl

/-! ## 3. Strings -/

theorem parseString_flatMap (start : List Char) (cs rest : List Char) {fuel : Nat}
    (h : cs.length < fuel) :
    parseString start fuel (cs.flatMap escapedChar ++ '"' :: rest) = .ok (cs, rest) := by
  induction cs generalizing fuel with
  | nil =>
    cases fuel with
    | zero => cases h
    | succ fuel => rfl
  | cons c cs ih =>
    cases fuel with
    | zero => cases h
    | succ fuel =>
      rw [List.flatMap_cons, List.append_assoc,
        parseString_escapedChar _ _ _ (List.append_ne_nil_of_right_ne_nil _ (List.cons_ne_nil _ _)),
        ih (Nat.lt_of_succ_lt_succ h)]
      rfl

theorem escapedChar_ne_nil (c : Char) : escapedChar c ≠ [] := by
  rw [escapedChar]
  repeat' split
  all_goals exact List.cons_ne_nil _ _

theorem length_le_flatMap_escapedChar (cs : List Char) :
    cs.length ≤ (cs.flatMap escapedChar).length := by
  induction cs with
  | nil => exact Nat.le_refl 0
  | cons c cs ih =>
    have hpos := List.length_pos_iff.mpr (escapedChar_ne_nil c)
    rw [List.flatMap_cons, List.length_append, List.length_cons]
    omega

/-- **A string is read from its text, whatever follows it.** -/
theorem parseString_stringText (start : List Char) (s : String) (rest : List Char) :
    ∃ body, stringText s ++ rest = '"' :: body ∧
      parseString start (body.length + 1) body = .ok (s.toList, rest) := by
  refine ⟨s.toList.flatMap escapedChar ++ '"' :: rest, ?_, parseString_flatMap _ _ _ ?_⟩
  · rw [stringText, List.cons_append, List.cons_append, List.append_assoc]
    rfl
  · have := length_le_flatMap_escapedChar s.toList
    rw [List.length_append]
    omega

end Steward.Json
