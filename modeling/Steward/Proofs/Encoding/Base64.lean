import Steward.Encoding.Base64

/-!
# Bytes come back from their base64 form

A group of three bytes is written as four characters that leave nothing over, so the groups are
decoded one after the other; only the last one may be shorter, and its padding ends the text.
-/

namespace Steward.Base64

/-! ## 1. The alphabet -/

theorem value?_symbol : ∀ n < 64, value? (symbol n) = some n := by decide

theorem symbol_ne_padding : ∀ n < 64, symbol n ≠ '=' := by decide

theorem symbol_ascii : ∀ n < 64, (symbol n).toNat < 0x80 := by decide

theorem ascii_of_mem_encode {bs : List UInt8} {c : Char} (hc : c ∈ encode bs) : c.toNat < 0x80 := by
  have hpadding : '='.toNat < 0x80 := by decide
  fun_induction encode bs with
  | case1 => cases hc
  | case2 a =>
    have ha := a.toNat_lt
    rw [List.mem_cons, List.mem_cons, List.mem_cons, List.mem_singleton] at hc
    rcases hc with rfl | rfl | rfl | rfl
    · exact symbol_ascii _ (by omega)
    · exact symbol_ascii _ (by omega)
    · exact hpadding
    · exact hpadding
  | case3 a b =>
    have ha := a.toNat_lt
    have hb := b.toNat_lt
    rw [List.mem_cons, List.mem_cons, List.mem_cons, List.mem_singleton] at hc
    rcases hc with rfl | rfl | rfl | rfl
    · exact symbol_ascii _ (by omega)
    · exact symbol_ascii _ (by omega)
    · exact symbol_ascii _ (by omega)
    · exact hpadding
  | case4 a b d rest ih =>
    have ha := a.toNat_lt
    have hb := b.toNat_lt
    have hd := d.toNat_lt
    rw [List.mem_cons, List.mem_cons, List.mem_cons, List.mem_cons] at hc
    rcases hc with rfl | rfl | rfl | rfl | hc
    · exact symbol_ascii _ (by omega)
    · exact symbol_ascii _ (by omega)
    · exact symbol_ascii _ (by omega)
    · exact symbol_ascii _ (by omega)
    · exact ih hc

/-! ## 2. Groups -/

/-- A character of the alphabet adds its six bits. -/
theorem decodeFrom_symbol {g : Group} (hg : g.padded = false) {n : Nat} (hn : n < 64)
    (rest : List Char) :
    decodeFrom g (symbol n :: rest) =
      (decodeFrom (g.add n).2 rest).map ((g.add n).1.toList ++ ·) := by
  rw [decodeFrom, if_neg (symbol_ne_padding n hn), value?_symbol n hn]
  simp only [hg, Bool.false_eq_true, if_false]

theorem decodeFrom_encode (bs : List UInt8) (written : Nat) :
    decodeFrom { written } (encode bs) = .ok bs := by
  have hbyte {n : Nat} {a : UInt8} (h : n = a.toNat) : UInt8.ofNat n = a := by
    rw [h, UInt8.ofNat_toNat]
  fun_induction encode bs generalizing written with
  | case1 => rfl
  | case2 a =>
    have ha := a.toNat_lt
    have hfirst : UInt8.ofNat (a.toNat / 4 * 4 + a.toNat % 4 * 16 / 16) = a := hbyte (by omega)
    rw [decodeFrom_symbol rfl (by omega), decodeFrom_symbol rfl (by omega)]
    simp only [Group.add, hfirst]
    rfl
  | case3 a b =>
    have ha := a.toNat_lt
    have hb := b.toNat_lt
    have hfirst : UInt8.ofNat (a.toNat / 4 * 4 + (a.toNat % 4 * 16 + b.toNat / 16) / 16) = a :=
      hbyte (by omega)
    have hsecond : UInt8.ofNat ((a.toNat % 4 * 16 + b.toNat / 16) % 16 * 16 +
        b.toNat % 16 * 4 / 4) = b := hbyte (by omega)
    rw [decodeFrom_symbol rfl (by omega), decodeFrom_symbol rfl (by omega),
      decodeFrom_symbol rfl (by omega)]
    simp only [Group.add, hfirst, hsecond]
    rfl
  | case4 a b c rest ih =>
    have ha := a.toNat_lt
    have hb := b.toNat_lt
    have hc := c.toNat_lt
    have hfirst : UInt8.ofNat (a.toNat / 4 * 4 + (a.toNat % 4 * 16 + b.toNat / 16) / 16) = a :=
      hbyte (by omega)
    have hsecond : UInt8.ofNat ((a.toNat % 4 * 16 + b.toNat / 16) % 16 * 16 +
        (b.toNat % 16 * 4 + c.toNat / 64) / 4) = b := hbyte (by omega)
    have hthird : UInt8.ofNat ((b.toNat % 16 * 4 + c.toNat / 64) % 4 * 64 + c.toNat % 64) = c :=
      hbyte (by omega)
    rw [decodeFrom_symbol rfl (by omega), decodeFrom_symbol rfl (by omega),
      decodeFrom_symbol rfl (by omega), decodeFrom_symbol rfl (by omega)]
    simp only [Group.add, hfirst, hsecond, hthird, ih]
    rfl

/-! ## 3. Bytes -/

theorem head?_encode_ne (bs : List UInt8) : (encode bs).head? ≠ some '=' := by
  have hsymbol (a : UInt8) : symbol (a.toNat / 4) ≠ '=' := by
    have ha := a.toNat_lt
    exact symbol_ne_padding _ (by omega)
  fun_cases encode bs with
  | case1 => exact nofun
  | case2 a | case3 a b | case4 a b c rest => exact fun h => hsymbol a (Option.some.inj h)

/-- **Bytes are decoded from their base64 form.** -/
theorem decode_encode (bs : List UInt8) : decode (encode bs) = .ok bs := by
  have hascii : (encode bs).any (0x80 ≤ ·.toNat) = false := by
    rw [List.any_eq_false]
    intro c hc
    rw [decide_eq_true_iff]
    exact Nat.not_le.mpr (ascii_of_mem_encode hc)
  rw [decode, hascii, if_neg Bool.false_ne_true, if_neg (head?_encode_ne bs)]
  exact decodeFrom_encode bs 0

end Steward.Base64
