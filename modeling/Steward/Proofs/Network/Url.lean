import Steward.Network.Url
import Steward.Proofs.Fallible
import Steward.Proofs.Text.Case
import Steward.Proofs.Text.Numeral

/-!
# URLs come apart as they were put together

A URL that is put together from a scheme, a host, a port and a path of plain characters (`Plain`) is
split into the same parts (`Plain.split_text`): each delimiter is found where it was put, as none of
the parts before it has one, and nothing in it is dropped, refused or taken for parameters.  Of any
URL, the host is not empty and the port is one of the 65536 (`host_ne_empty`, `port_le`).
-/

namespace Steward.Network

/-! ## 1. Plain URLs -/

namespace Url

/-- Characters of hosts: small letters, digits, dots and hyphens. -/
def isHostChar (c : Char) : Bool := ('a' ≤ c && c ≤ 'z') || isDigit c || c == '.' || c == '-'

/-- Characters of paths: letters, digits, slashes and a few signs that delimit nothing. -/
def isPathChar (c : Char) : Bool :=
  isLetter c || isDigit c || c == '/' || c == '.' || c == '_' || c == '-' || c == '~'

/-- A port behind a host. -/
def portText : Option Nat → List Char
  | none => []
  | some p => ':' :: Nat.toDigits 10 p

/-- Characters of hosts with ports. -/
def isAuthorityChar (c : Char) : Bool := isHostChar c || c == ':'

end Url

open Url

/-- The parts that a URL is put together from. -/
structure Plain where
  scheme : List Char
  host : List Char
  port : Option Nat
  path : List Char

namespace Plain

variable {u : Plain}

/-- The host and the port. -/
def authority (u : Plain) : List Char := u.host ++ portText u.port

/-- The URL. -/
def text (u : Plain) : String :=
  String.ofList (u.scheme ++ "://".toList ++ u.authority ++ u.path)

/-- Host and path are of plain characters, and there is a host. -/
structure Proper (u : Plain) : Prop where
  host_ne_nil : u.host ≠ []
  host : ∀ c ∈ u.host, isHostChar c = true
  port : ∀ p ∈ u.port, p ≤ 65535
  path_head : ∀ c ∈ u.path.head?, c = '/'
  path : ∀ c ∈ u.path, isPathChar c = true

end Plain

/-! ## 2. Characters -/

section Characters

variable {c : Char} {cs : List Char}

/-- A character outside of a class is in no text of the class. -/
theorem notMem_of_class {p : Char → Bool} (h : ∀ d ∈ cs, p d = true) (hc : p c = false) :
    c ∉ cs := fun hmem => Bool.false_ne_true (hc.symm.trans (h c hmem))

theorem isSchemeChar_of_letter (h : isLetter c = true) : isSchemeChar c = true := by
  rw [isSchemeChar, h]
  rfl

theorem isPathChar_of_letter (h : isLetter c = true) : isPathChar c = true := by
  rw [isPathChar, h]
  rfl

theorem isAuthorityChar_of_hostChar (h : isHostChar c = true) : isAuthorityChar c = true := by
  rw [isAuthorityChar, h, Bool.true_or]

theorem isHostChar_of_digit (h : isDigit c = true) : isHostChar c = true := by
  rw [isHostChar, h, Bool.or_true]
  rfl

/-- A letter is one in either case. -/
theorem isLetter_of_toLower (h : isLetter c.toLower = true) : isLetter c = true := by
  delta Char.toLower at h
  split at h
  · rename_i hcapital
    rw [isLetter, Bool.or_eq_true, Bool.and_eq_true (decide _) (decide (c ≤ 'Z'))]
    exact .inr ⟨decide_eq_true hcapital.1, decide_eq_true hcapital.2⟩
  · exact h

theorem code_of_digit (h : isDigit c = true) : 0x30 ≤ c.toNat ∧ c.toNat ≤ 0x39 := by
  rw [isDigit, Bool.and_eq_true, decide_eq_true_eq, decide_eq_true_eq] at h
  exact h

theorem code_of_letter (h : isLetter c = true) :
    0x61 ≤ c.toNat ∧ c.toNat ≤ 0x7A ∨ 0x41 ≤ c.toNat ∧ c.toNat ≤ 0x5A := by
  simp only [isLetter, Bool.or_eq_true, Bool.and_eq_true, decide_eq_true_eq] at h
  exact h

/-- The codes of the characters of hosts: no capital is among them. -/
theorem code_of_hostChar (h : isHostChar c = true) :
    0x61 ≤ c.toNat ∧ c.toNat ≤ 0x7A ∨ 0x2D ≤ c.toNat ∧ c.toNat ≤ 0x39 := by
  simp only [isHostChar, Bool.or_eq_true, Bool.and_eq_true, decide_eq_true_eq, beq_iff_eq] at h
  rcases h with ((hletter | hdigit) | rfl) | rfl
  · exact .inl hletter
  · have := code_of_digit hdigit
    omega
  · exact .inr (by decide)
  · exact .inr (by decide)

/-- No character of a path is a blank or beyond ASCII. -/
theorem code_of_pathChar (h : isPathChar c = true) : 0x20 < c.toNat ∧ c.toNat < 0x80 := by
  simp only [isPathChar, Bool.or_eq_true, beq_iff_eq] at h
  rcases h with (((((hletter | hdigit) | rfl) | rfl) | rfl) | rfl) | rfl
  · have := code_of_letter hletter
    omega
  · have := code_of_digit hdigit
    omega
  all_goals decide

theorem code_of_authorityChar (h : isAuthorityChar c = true) :
    0x20 < c.toNat ∧ c.toNat < 0x80 := by
  simp only [isAuthorityChar, Bool.or_eq_true, beq_iff_eq] at h
  rcases h with hhost | rfl
  · have := code_of_hostChar hhost
    omega
  · decide

theorem final_of_hostChar (h : isHostChar c = true) : Text.Final c := by
  have hcode := code_of_hostChar h
  exact Text.final_of_ascii (by omega) (by omega)

/-- What hides a delimiter is beyond ASCII. -/
theorem hidesDelimiter_of_ascii (h : c.toNat < 0x80) : hidesDelimiter c = false := by
  rw [hidesDelimiter, decide_eq_false_iff_not]
  intro hmem
  simp only [List.mem_cons, List.not_mem_nil, or_false] at hmem
  omega

end Characters

/-! ## 3. Splitting -/

section Splitting

variable {cs scheme authority path rest : List Char}

theorem significant_eq (h : ∀ c ∈ cs, 0x20 < c.toNat) : significant cs = cs := by
  have hall : ∀ c ∈ cs, (c != '\t' && c != '\n' && c != '\r') = true := by
    intro c hc
    have hcode := h c hc
    simp only [Bool.and_eq_true, bne_iff_ne]
    refine ⟨⟨?_, ?_⟩, ?_⟩
    all_goals
      rintro rfl
      exact absurd hcode (by decide)
  rw [significant]
  cases cs with
  | nil => rfl
  | cons c cs =>
    have hcode := h c List.mem_cons_self
    rw [List.dropWhile_cons_of_neg (by simpa using hcode), List.filter_eq_self.mpr hall]

theorem splitScheme_eq (hne : scheme ≠ []) (h : ∀ c ∈ scheme, isLetter c = true) :
    splitScheme (scheme ++ ':' :: rest) = (scheme.map Char.toLower, rest) := by
  rw [splitScheme, Text.cut_append (notMem_of_class h (by decide))]
  cases scheme with
  | nil => exact absurd rfl hne
  | cons c cs =>
    have hall : (c :: cs).all isSchemeChar = true :=
      List.all_eq_true.mpr fun d hd => isSchemeChar_of_letter (h d hd)
    dsimp only
    rw [h c List.mem_cons_self, hall]
    rfl

theorem splitAuthority_eq (h : ∀ c ∈ authority, isAuthorityChar c = true)
    (hpath : ∀ c ∈ path.head?, c = '/') :
    splitAuthority ('/' :: '/' :: (authority ++ path)) = (authority, path) := by
  have hauthority : ∀ c ∈ authority, (c != '/' && c != '?' && c != '#') = true := by
    intro c hc
    simp only [Bool.and_eq_true, bne_iff_ne]
    refine ⟨⟨?_, ?_⟩, ?_⟩
    all_goals
      rintro rfl
      exact absurd (h _ hc) (by decide)
  rw [splitAuthority, List.span_eq_takeWhile_dropWhile, List.takeWhile_append_of_pos hauthority,
    List.dropWhile_append_of_pos hauthority]
  cases path with
  | nil => rw [List.takeWhile_nil, List.dropWhile_nil, List.append_nil]
  | cons c cs =>
    cases hpath c rfl
    rw [List.takeWhile_cons_of_neg (by decide), List.dropWhile_cons_of_neg (by decide),
      List.append_nil]

theorem checkBrackets_eq (h : ∀ c ∈ authority, isAuthorityChar c = true) :
    checkBrackets authority = .ok () := by
  have hopened : authority.contains '[' = false :=
    Bool.eq_false_iff.mpr fun hmem => notMem_of_class h (by decide) (List.contains_iff_mem.mp hmem)
  have hclosed : authority.contains ']' = false :=
    Bool.eq_false_iff.mpr fun hmem => notMem_of_class h (by decide) (List.contains_iff_mem.mp hmem)
  rw [checkBrackets, hopened, hclosed]
  rfl

/-- Without a semicolon there are no parameters. -/
theorem dropParameters_eq (h : ';' ∉ path) : dropParameters path = path := by
  have hsuffix : Text.afterLast '/' path <:+ path := by
    rw [Text.afterLast, ← List.reverse_prefix, List.reverse_reverse]
    exact List.takeWhile_prefix _
  rw [dropParameters, Text.cut_eq_self fun hmem => h (hsuffix.mem hmem)]
  obtain ⟨before, hbefore⟩ := hsuffix
  generalize Text.afterLast '/' path = segment at hbefore ⊢
  rw [← hbefore, List.length_append, Nat.add_sub_cancel, List.take_left]

end Splitting

namespace Plain

variable {u : Plain}

theorem isDigit_of_mem_toDigits {n : Nat} {c : Char} (h : c ∈ Nat.toDigits 10 n) :
    isDigit c = true :=
  Nat.isDigit_of_mem_toDigits (by decide) (by decide) h

theorem Proper.authority (h : u.Proper) : ∀ c ∈ u.authority, isAuthorityChar c = true := by
  intro c hc
  rw [Plain.authority, List.mem_append] at hc
  rcases hc with hhost | hport
  · exact isAuthorityChar_of_hostChar (h.host c hhost)
  · cases hp : u.port with
    | none =>
      rw [hp] at hport
      cases hport
    | some p =>
      rw [hp, portText, List.mem_cons] at hport
      rcases hport with rfl | hdigit
      · decide
      · exact isAuthorityChar_of_hostChar (isHostChar_of_digit (isDigit_of_mem_toDigits hdigit))

/-- **A plain URL is split into its parts.** -/
theorem Proper.split_text (h : u.Proper) (hne : u.scheme ≠ [])
    (hscheme : ∀ c ∈ u.scheme, isLetter c = true) :
    split u.text = .ok ⟨u.scheme.map Char.toLower, u.authority, u.path⟩ := by
  have hsignificant : significant (u.scheme ++ "://".toList ++ u.authority ++ u.path) =
      u.scheme ++ ':' :: '/' :: '/' :: (u.authority ++ u.path) := by
    rw [significant_eq, List.append_assoc, List.append_assoc]
    · rfl
    · simp only [List.forall_mem_append]
      refine ⟨⟨⟨fun c hc => ?_, fun c hc => ?_⟩, fun c hc => ?_⟩, fun c hc => ?_⟩
      · exact (code_of_pathChar (isPathChar_of_letter (hscheme c hc))).1
      · have hdelimiters : ("://".toList.all fun c => decide (0x20 < c.toNat)) = true := by decide
        exact of_decide_eq_true (List.all_eq_true.mp hdelimiters c hc)
      · exact (code_of_authorityChar (h.authority c hc)).1
      · exact (code_of_pathChar (h.path c hc)).1
  have hquestion : Text.cut '?' u.path = (u.path, none) :=
    Text.cut_eq_self (notMem_of_class h.path (by decide))
  have hfragment : Text.cut '#' u.path = (u.path, none) :=
    Text.cut_eq_self (notMem_of_class h.path (by decide))
  have hhides : u.authority.any hidesDelimiter = false :=
    List.any_eq_false.mpr fun c hc => Bool.eq_false_iff.mp
      (hidesDelimiter_of_ascii (code_of_authorityChar (h.authority c hc)).2)
  simp only [split, text, String.toList_ofList, hsignificant,
    splitScheme_eq hne hscheme, splitAuthority_eq h.authority h.path_head,
    checkBrackets_eq h.authority, hfragment, hquestion, hhides,
    dropParameters_eq (notMem_of_class h.path (by decide)), ite_self]
  rfl

/-- Host and port are told apart by the first colon. -/
theorem Proper.hostAndPort (h : u.Proper) {scheme path : List Char} :
    Url.hostAndPort ⟨scheme, u.authority, path⟩ = (u.host, (portText u.port).tail) := by
  have hcolon : ':' ∉ u.host := notMem_of_class h.host (by decide)
  rw [Url.hostAndPort, Text.afterLast_eq_self (notMem_of_class h.authority (by decide)),
    Text.cut_eq_self (notMem_of_class h.authority (by decide)), Plain.authority]
  cases u.port with
  | none =>
    rw [portText, List.append_nil, Text.cut_eq_self hcolon]
    rfl
  | some p =>
    rw [portText, Text.cut_append hcolon]
    rfl

theorem Proper.host? (h : u.Proper) {scheme path : List Char} :
    Url.host? ⟨scheme, u.authority, path⟩ = some (String.ofList u.host) := by
  rw [Url.host?, h.hostAndPort]
  dsimp only
  rw [if_neg (by rw [List.isEmpty_iff]; exact h.host_ne_nil),
    Text.cut_eq_self (notMem_of_class h.host (by decide))]
  dsimp only
  rw [Text.lower, String.toList_ofList,
    Text.lowerFrom_of_final fun c hc => final_of_hostChar (h.host c hc), String.append_empty]

theorem readInteger_toDigits {n : Nat} (h : n ≤ 65535) :
    Text.readInteger (String.ofList (Nat.toDigits 10 n)) = .ok n := by
  have hdecimal : ∀ c ∈ Nat.toDigits 10 n, Text.isDecimal c = true := by
    intro c hc
    have hdigit := isDigit_of_mem_toDigits hc
    rw [isDigit, Bool.and_eq_true, decide_eq_true_eq, decide_eq_true_eq] at hdigit
    rw [Text.isDecimal, Text.digitValue?, if_pos hdigit]
    rfl
  have hlength : (Nat.toDigits 10 n).length ≤ 5 :=
    (Nat.length_toDigits_le_iff (by decide) (by decide)).mpr (by omega)
  refine (Text.readInteger_eq_ok_iff Nat.toDigits_ne_nil
    fun c hc => Text.isDigitLike_of_decimal (hdecimal c hc)).mpr ⟨hdecimal, ?_, ?_⟩
  · exact hlength.trans (by decide)
  · rw [Text.numeralValue_toDigits]

theorem Proper.port? (h : u.Proper) {scheme path : List Char} :
    Url.port? ⟨scheme, u.authority, path⟩ = .ok u.port := by
  rw [Url.port?, h.hostAndPort]
  cases hport : u.port with
  | none => rfl
  | some p =>
    have hdigits : (Nat.toDigits 10 p).all isDigit = true :=
      List.all_eq_true.mpr fun c hc => isDigit_of_mem_toDigits hc
    have hle := h.port p hport
    dsimp only [portText, List.tail_cons]
    rw [if_neg (by rw [List.isEmpty_iff]; exact Nat.toDigits_ne_nil), hdigits,
      readInteger_toDigits hle]
    exact if_pos (Int.ofNat_le.mpr hle)

end Plain

/-! ## 4. Any URL -/

namespace Url

variable {url : Url}

/-- The text begins with a scheme that is the name in any case. -/
def HasScheme (text name : String) : Prop :=
  ∃ scheme rest, significant text.toList = scheme ++ ':' :: rest ∧
    scheme.map Char.toLower = name.toList

/-- The scheme of a URL stands before the first colon of its text. -/
theorem scheme_of_split {text : String} (h : split text = .ok url) (hne : url.scheme ≠ []) :
    ∃ scheme rest, Text.cut ':' (significant text.toList) = (scheme, some rest) ∧
      url.scheme = scheme.map Char.toLower := by
  have hscheme : url.scheme = (splitScheme (significant text.toList)).1 := by
    simp only [split] at h
    obtain ⟨_, -, h⟩ := bind_eq_ok_iff.mp h
    split at h
    · cases h
    · cases h
      rfl
  rw [hscheme, splitScheme] at hne ⊢
  split at hne
  · rename_i scheme rest hcut
    split at hne
    · split at hne
      · rename_i hall
        rw [hcut]
        exact ⟨_, _, rfl, if_pos hall ▸ rfl⟩
      · exact absurd rfl hne
    · exact absurd rfl hne
  · exact absurd rfl hne

/-- No other scheme is found there, as a name has no colon. -/
theorem hasScheme_iff {text name : String} (h : split text = .ok url) (hne : url.scheme ≠ [])
    (hname : ':' ∉ name.toList) : HasScheme text name ↔ url.scheme = name.toList := by
  obtain ⟨scheme, rest, hcut, hscheme⟩ := scheme_of_split h hne
  rw [hscheme]
  constructor
  · rintro ⟨scheme', rest', htext, hlower⟩
    have hcolon : ':' ∉ scheme' := fun hmem =>
      hname (hlower ▸ List.mem_map_of_mem (f := Char.toLower) hmem)
    rw [htext, Text.cut_append hcolon] at hcut
    cases hcut
    exact hlower
  · intro hlower
    exact ⟨scheme, rest, (Text.cut_eq_some_iff.mp hcut).1, hlower⟩

theorem lowerFrom_ne_nil {before cs : List Char} (h : cs ≠ []) : Text.lowerFrom before cs ≠ [] := by
  cases cs with
  | nil => exact absurd rfl h
  | cons c rest =>
    rw [Text.lowerFrom, Text.lowerChar]
    split
    · exact List.cons_ne_nil _ _
    split
    · exact List.cons_ne_nil _ _
    split
    · exact List.cons_ne_nil _ _
    · exact List.cons_ne_nil _ _

/-- A host is not empty: the zone of an address has its percent sign. -/
theorem host_ne_empty {host : String} (h : url.host? = some host) : host ≠ "" := by
  rw [host?] at h
  dsimp only at h
  split at h
  · cases h
  rename_i hne
  rw [List.isEmpty_iff] at hne
  cases hcut : Text.cut '%' url.hostAndPort.1 with
  | mk name zone =>
    rw [hcut] at h
    cases h
    rw [Ne, ← String.toList_eq_nil_iff, String.toList_append, List.append_eq_nil_iff, Text.lower,
      String.toList_ofList, String.toList_ofList]
    rintro ⟨hname, hzone⟩
    cases zone with
    | none =>
      rw [← Text.eq_of_cut_eq_none hcut] at hne
      exact lowerFrom_ne_nil hne hname
    | some z =>
      rw [String.toList_append] at hzone
      cases hzone

/-- A port is one of the 65536. -/
theorem port_le {p : Nat} (h : url.port? = .ok (some p)) : p ≤ 65535 := by
  rw [port?] at h
  dsimp only at h
  split at h
  · cases h
  split at h
  · cases h
  split at h
  · cases h
  split at h
  · cases h
    omega
  · cases h

end Url

end Steward.Network
