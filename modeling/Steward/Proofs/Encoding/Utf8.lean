import Steward.Encoding.Utf8

/-!
# Texts come back from their bytes

The bytes of a character begin no other one: whatever follows them, they are decoded as that
character, and what follows is left.  So the bytes of a text are decoded as the text.
-/

namespace Steward.Utf8

/-! ## 1. Bytes -/

theorem toNat_byte {n : Nat} (h : n < 256) : (byte n).toNat = n := by
  rw [byte, UInt8.toNat_ofNat']
  exact Nat.mod_eq_of_lt h

/-- The numbers that stand for characters. -/
theorem toNat_range (c : Char) : c.toNat < 0xD800 ∨ 0xDFFF < c.toNat ∧ c.toNat < 0x110000 :=
  c.valid

/-- A byte that carries six more bits. -/
theorem tail_byte {k n d : Nat} {bs : List UInt8} {r : Nat × List UInt8} (hd : d < 0x40)
    (h : tail k (n * 0x40 + d) bs = .ok r) : tail (k + 1) n (byte (0x80 + d) :: bs) = .ok r := by
  have hbyte : (byte (0x80 + d)).toNat = 0x80 + d := toNat_byte (by omega)
  have hmore : isContinuation (byte (0x80 + d)) = true := by
    rw [isContinuation, hbyte, Bool.and_eq_true, decide_eq_true_iff, decide_eq_true_iff]
    omega
  rw [tail, if_pos hmore, hbyte, Nat.add_sub_cancel_left, h]

/-- A character of several bytes is decoded as its first byte says. -/
theorem decodeChar_lead {b next : UInt8} {bs : List UInt8} {following low high : Nat}
    (hfollowers : followers? b = some (following, low, high)) (hlead : 0x80 ≤ b.toNat)
    (hlow : low ≤ next.toNat) (hhigh : next.toNat ≤ high) :
    decodeChar b (next :: bs) = tail following (lead b following) (next :: bs) := by
  rw [decodeChar, if_neg (Nat.not_lt.mpr hlead), hfollowers]
  exact if_pos ⟨hlow, hhigh⟩

/-! ## 2. Characters -/

section Lengths

variable {n : Nat} (rest : List UInt8)

theorem decodeChar_two (hlow : 0x80 ≤ n) (hhigh : n < 0x800) :
    decodeChar (byte (0xC0 + n / 0x40)) (byte (0x80 + n % 0x40) :: rest) = .ok (n, rest) := by
  have hfirst : (byte (0xC0 + n / 0x40)).toNat = 0xC0 + n / 0x40 := toNat_byte (by omega)
  have hnext : (byte (0x80 + n % 0x40)).toNat = 0x80 + n % 0x40 := toNat_byte (by omega)
  have hfollowers : followers? (byte (0xC0 + n / 0x40)) = some (1, 0x80, 0xBF) := by
    rw [followers?, hfirst]
    exact if_pos (by omega)
  rw [decodeChar_lead hfollowers (by omega) (by omega) (by omega), lead, hfirst, if_pos rfl]
  refine tail_byte (by omega) ?_
  rw [tail]
  congr 2
  omega

theorem decodeChar_three (hlow : 0x800 ≤ n) (hhigh : n < 0x10000)
    (hrange : n < 0xD800 ∨ 0xDFFF < n) :
    decodeChar (byte (0xE0 + n / 0x1000))
      (byte (0x80 + n / 0x40 % 0x40) :: byte (0x80 + n % 0x40) :: rest) = .ok (n, rest) := by
  have hfirst : (byte (0xE0 + n / 0x1000)).toNat = 0xE0 + n / 0x1000 := toNat_byte (by omega)
  have hnext : (byte (0x80 + n / 0x40 % 0x40)).toNat = 0x80 + n / 0x40 % 0x40 :=
    toNat_byte (by omega)
  obtain ⟨low, high, hfollowers, hlow, hhigh⟩ : ∃ low high,
      followers? (byte (0xE0 + n / 0x1000)) = some (2, low, high) ∧
        low ≤ 0x80 + n / 0x40 % 0x40 ∧ 0x80 + n / 0x40 % 0x40 ≤ high := by
    rw [followers?, hfirst, if_neg (by omega)]
    -- the ranges after 0xE0 and 0xED exclude overlong forms and surrogates
    split
    · exact ⟨_, _, rfl, by omega, by omega⟩
    split
    · exact ⟨_, _, rfl, by omega, by omega⟩
    rw [if_pos (by omega)]
    exact ⟨_, _, rfl, by omega, by omega⟩
  rw [decodeChar_lead hfollowers (by omega) (by omega) (by omega), lead, hfirst,
    if_neg (by decide), if_pos rfl]
  refine tail_byte (by omega) (tail_byte (by omega) ?_)
  rw [tail]
  congr 2
  omega

theorem decodeChar_four (hlow : 0x10000 ≤ n) (hhigh : n < 0x110000) :
    decodeChar (byte (0xF0 + n / 0x40000)) (byte (0x80 + n / 0x1000 % 0x40) ::
      byte (0x80 + n / 0x40 % 0x40) :: byte (0x80 + n % 0x40) :: rest) = .ok (n, rest) := by
  have hfirst : (byte (0xF0 + n / 0x40000)).toNat = 0xF0 + n / 0x40000 := toNat_byte (by omega)
  have hnext : (byte (0x80 + n / 0x1000 % 0x40)).toNat = 0x80 + n / 0x1000 % 0x40 :=
    toNat_byte (by omega)
  obtain ⟨low, high, hfollowers, hlow, hhigh⟩ : ∃ low high,
      followers? (byte (0xF0 + n / 0x40000)) = some (3, low, high) ∧
        low ≤ 0x80 + n / 0x1000 % 0x40 ∧ 0x80 + n / 0x1000 % 0x40 ≤ high := by
    rw [followers?, hfirst, if_neg (by omega), if_neg (by omega), if_neg (by omega),
      if_neg (by omega)]
    -- the ranges after 0xF0 and 0xF4 exclude overlong forms and numbers beyond Unicode
    split
    · exact ⟨_, _, rfl, by omega, by omega⟩
    split
    · exact ⟨_, _, rfl, by omega, by omega⟩
    rw [if_pos (by omega)]
    exact ⟨_, _, rfl, by omega, by omega⟩
  rw [decodeChar_lead hfollowers (by omega) (by omega) (by omega), lead, hfirst,
    if_neg (by decide), if_neg (by decide)]
  refine tail_byte (by omega) (tail_byte (by omega) (tail_byte (by omega) ?_))
  rw [tail]
  congr 2
  omega

end Lengths

/-- The bytes of a character are decoded as that character, whatever follows. -/
theorem decodeChar_encodeChar (c : Char) (rest : List UInt8) :
    ∃ b bs, encodeChar c = b :: bs ∧ decodeChar b (bs ++ rest) = .ok (c.toNat, rest) := by
  have hrange := toNat_range c
  rw [encodeChar]
  generalize c.toNat = n at hrange ⊢
  split
  · refine ⟨_, [], rfl, ?_⟩
    rw [decodeChar, toNat_byte (by omega), if_pos ‹_›]
    rfl
  split
  · exact ⟨_, _, rfl, decodeChar_two rest (by omega) ‹_›⟩
  split
  · exact ⟨_, _, rfl, decodeChar_three rest (by omega) ‹_› (by omega)⟩
  · exact ⟨_, _, rfl, decodeChar_four rest (by omega) (by omega)⟩

/-! ## 3. Texts -/

theorem decodeFrom_encode (cs : List Char) (fuel position : Nat) (h : cs.length ≤ fuel) :
    decodeFrom fuel position (encode cs) = .ok cs := by
  induction cs generalizing fuel position with
  | nil => cases fuel <;> rfl
  | cons c cs ih =>
    obtain ⟨b, bs, hbytes, hchar⟩ := decodeChar_encodeChar c (encode cs)
    have hencode : encode (c :: cs) = b :: (bs ++ encode cs) := by
      rw [encode, List.flatMap_cons, hbytes]
      rfl
    cases fuel with
    | zero => exact absurd h (Nat.not_succ_le_zero _)
    | succ fuel =>
      rw [hencode, decodeFrom, hchar]
      dsimp only
      rw [ih fuel _ (Nat.le_of_succ_le_succ h), Except.map, Char.ofNat_toNat]

theorem length_le_encode (cs : List Char) : cs.length ≤ (encode cs).length := by
  induction cs with
  | nil => exact Nat.le_refl 0
  | cons c cs ih =>
    obtain ⟨b, bs, hbytes, -⟩ := decodeChar_encodeChar c []
    rw [encode, List.flatMap_cons, hbytes, List.length_append, List.length_cons, List.length_cons]
    rw [encode] at ih
    omega

/-- **The bytes of a text are decoded as the text.** -/
theorem decode_encode (cs : List Char) : decode (encode cs) = .ok cs :=
  decodeFrom_encode cs _ 0 (length_le_encode cs)

end Steward.Utf8
