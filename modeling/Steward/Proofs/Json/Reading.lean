import Steward.Proofs.Document.Finite
import Steward.Proofs.Json.Numbers
import Steward.Proofs.Json.Strings

/-!
# Documents come back from their text

A document is read back from its text if nothing about it is beyond reading: its numbers are finite
and not too long, no object has a key twice, and its lists and objects do not stand too deep inside
each other.  The text of a value is followed by nothing that could be part of it, so that values
are read one by one, each to its end; the fuel is twice the number of characters, as one step goes
into a value and one past it.
-/

namespace Steward.Json

/-! ## 1. What is read back -/

mutual

/-- No object in a document has a key twice. -/
def keysOnce : Json → Bool
  | .array items => keysOnceItems items
  | .object members => decide (Table.keys members).Nodup && keysOnceMembers members
  | _ => true

/-- No object in an item has a key twice. -/
def keysOnceItems : List Json → Bool
  | [] => true
  | v :: rest => keysOnce v && keysOnceItems rest

/-- No object in a member has a key twice. -/
def keysOnceMembers : List (String × Json) → Bool
  | [] => true
  | (_, v) :: rest => keysOnce v && keysOnceMembers rest

end

section Parts

variable {vs : List Json} {ms : Members} {n : Nat}

theorem finiteItems_iff : finiteItems vs = true ↔ ∀ v ∈ vs, v.finite = true := by
  induction vs with
  | nil => exact iff_of_true rfl (List.forall_mem_nil _)
  | cons v vs ih => rw [finiteItems, Bool.and_eq_true, ih, List.forall_mem_cons]

theorem finiteMembers_iff : finiteMembers ms = true ↔ ∀ m ∈ ms, m.2.finite = true := by
  induction ms with
  | nil => exact iff_of_true rfl (List.forall_mem_nil _)
  | cons m ms ih => rw [finiteMembers, Bool.and_eq_true, ih, List.forall_mem_cons]

theorem printableItems_iff : printableItems vs = true ↔ ∀ v ∈ vs, v.printable = true := by
  induction vs with
  | nil => exact iff_of_true rfl (List.forall_mem_nil _)
  | cons v vs ih => rw [printableItems, Bool.and_eq_true, ih, List.forall_mem_cons]

theorem printableMembers_iff : printableMembers ms = true ↔ ∀ m ∈ ms, m.2.printable = true := by
  induction ms with
  | nil => exact iff_of_true rfl (List.forall_mem_nil _)
  | cons m ms ih => rw [printableMembers, Bool.and_eq_true, ih, List.forall_mem_cons]

/-- A whole number is written as text if it has no more digits than can be read. -/
theorem isPrintableInt_iff {i : Int} :
    isPrintableInt i = true ↔ i.natAbs < 10 ^ Text.numeralLimit := by
  rw [isPrintableInt, decide_eq_true_iff]
  exact Nat.length_toDigits_le_iff (by decide) (by decide)

theorem keysOnceItems_iff : keysOnceItems vs = true ↔ ∀ v ∈ vs, v.keysOnce = true := by
  induction vs with
  | nil => exact iff_of_true rfl (List.forall_mem_nil _)
  | cons v vs ih => rw [keysOnceItems, Bool.and_eq_true, ih, List.forall_mem_cons]

theorem keysOnceMembers_iff : keysOnceMembers ms = true ↔ ∀ m ∈ ms, m.2.keysOnce = true := by
  induction ms with
  | nil => exact iff_of_true rfl (List.forall_mem_nil _)
  | cons m ms ih => rw [keysOnceMembers, Bool.and_eq_true, ih, List.forall_mem_cons]

theorem depthOfItems_le_iff : depthOfItems vs ≤ n ↔ ∀ v ∈ vs, v.depth ≤ n := by
  induction vs with
  | nil => exact iff_of_true (Nat.zero_le n) (List.forall_mem_nil _)
  | cons v vs ih => rw [depthOfItems, Nat.max_le, ih, List.forall_mem_cons]

theorem depthOfMembers_le_iff : depthOfMembers ms ≤ n ↔ ∀ m ∈ ms, m.2.depth ≤ n := by
  induction ms with
  | nil => exact iff_of_true (Nat.zero_le n) (List.forall_mem_nil _)
  | cons m ms ih => rw [depthOfMembers, Nat.max_le, ih, List.forall_mem_cons]

theorem depth_array_le_iff : (Json.array vs).depth ≤ n ↔ n ≠ 0 ∧ ∀ v ∈ vs, v.depth ≤ n - 1 := by
  rw [depth, ← depthOfItems_le_iff]
  omega

theorem depth_object_le_iff :
    (Json.object ms).depth ≤ n ↔ n ≠ 0 ∧ ∀ m ∈ ms, m.2.depth ≤ n - 1 := by
  rw [depth, ← depthOfMembers_le_iff]
  omega

end Parts

mutual

/-- **What can be written.**  A writer comes to the end of a document exactly if there is room for
its levels and no whole number has too many digits. -/
theorem obstacle?_eq_none_iff : ∀ (v : Json) {room : Nat},
    v.obstacle? room = none ↔ v.depth ≤ room ∧ v.printable = true
  | .array vs, room => by
    rw [obstacle?, depth, printable]
    split
    · exact iff_of_false (Option.some_ne_none _) fun h => absurd h.1 (by omega)
    · rw [obstacleOfItems?_eq_none_iff vs]
      exact and_congr_left' (by omega)
  | .object ms, room => by
    rw [obstacle?, depth, printable]
    split
    · exact iff_of_false (Option.some_ne_none _) fun h => absurd h.1 (by omega)
    · rw [obstacleOfMembers?_eq_none_iff ms]
      exact and_congr_left' (by omega)
  | .int n, room => by simp [obstacle?, depth, printable]
  | .null, _ | .bool _, _ | .float _, _ | .string _, _ =>
    iff_of_true rfl ⟨Nat.zero_le _, rfl⟩

theorem obstacleOfItems?_eq_none_iff : ∀ (vs : List Json) {room : Nat},
    obstacleOfItems? room vs = none ↔ depthOfItems vs ≤ room ∧ printableItems vs = true
  | [], _ => iff_of_true rfl ⟨Nat.zero_le _, rfl⟩
  | v :: rest, room => by
    rw [obstacleOfItems?, Option.or_eq_none_iff, obstacle?_eq_none_iff v,
      obstacleOfItems?_eq_none_iff rest, depthOfItems, printableItems, Nat.max_le, Bool.and_eq_true]
    exact and_and_and_comm

theorem obstacleOfMembers?_eq_none_iff : ∀ (ms : List (String × Json)) {room : Nat},
    obstacleOfMembers? room ms = none ↔ depthOfMembers ms ≤ room ∧ printableMembers ms = true
  | [], _ => iff_of_true rfl ⟨Nat.zero_le _, rfl⟩
  | (_, v) :: rest, room => by
    rw [obstacleOfMembers?, Option.or_eq_none_iff, obstacle?_eq_none_iff v,
      obstacleOfMembers?_eq_none_iff rest, depthOfMembers, printableMembers, Nat.max_le,
      Bool.and_eq_true]
    exact and_and_and_comm

end

/-- What is written of a document is its text. -/
theorem dump_eq_ok_iff [Room] {v : Json} {s : String} :
    v.dump = .ok s ↔ (v.depth ≤ Room.writing ∧ v.printable = true) ∧ v.text = s := by
  rw [← obstacle?_eq_none_iff, dump]
  cases v.obstacle? Room.writing <;> simp

/-- The keys of a document can be sorted if it can be written at all. -/
theorem canonicalDump_eq_ok_iff [Room] {v : Json} {s : String} :
    v.canonicalDump = .ok s ↔
      (v.depth ≤ Room.writing ∧ v.printable = true) ∧ v.canonicalText = s := by
  rw [← obstacle?_eq_none_iff, canonicalDump]
  cases v.obstacle? Room.writing <;> simp

/-- The numbers of a document are finite, and its keys are there once. -/
structure Tidy (v : Json) : Prop where
  finite : v.finite = true
  keysOnce : v.keysOnce = true

theorem tidy_array_iff {vs : List Json} : Tidy (.array vs) ↔ ∀ v ∈ vs, Tidy v := by
  constructor
  · rintro ⟨hfinite, honce⟩
    rw [Json.finite, finiteItems_iff] at hfinite
    rw [Json.keysOnce, keysOnceItems_iff] at honce
    exact fun v hv => ⟨hfinite v hv, honce v hv⟩
  · intro h
    exact ⟨finiteItems_iff.mpr fun v hv => (h v hv).finite,
      keysOnceItems_iff.mpr fun v hv => (h v hv).keysOnce⟩

theorem tidy_object_iff {ms : Members} :
    Tidy (.object ms) ↔ (Table.keys ms).Nodup ∧ ∀ m ∈ ms, Tidy m.2 := by
  constructor
  · rintro ⟨hfinite, honce⟩
    rw [Json.finite, finiteMembers_iff] at hfinite
    rw [Json.keysOnce, Bool.and_eq_true, decide_eq_true_iff, keysOnceMembers_iff] at honce
    exact ⟨honce.1, fun m hm => ⟨hfinite m hm, honce.2 m hm⟩⟩
  · rintro ⟨hkeys, h⟩
    refine ⟨finiteMembers_iff.mpr fun m hm => (h m hm).finite, ?_⟩
    rw [Json.keysOnce, Bool.and_eq_true, decide_eq_true_iff, keysOnceMembers_iff]
    exact ⟨hkeys, fun m hm => (h m hm).keysOnce⟩

/-- Nothing about a document is beyond reading, where so many levels may be opened. -/
structure Readable (room : Nat) (v : Json) : Prop extends Tidy v where
  depth : v.depth ≤ room
  printable : v.printable = true

/-- A document that is read where there is some room is read where there is enough. -/
theorem Readable.of_depth {room more : Nat} {v : Json} (h : Readable room v)
    (hdepth : v.depth ≤ more) : Readable more v :=
  ⟨h.toTidy, hdepth, h.printable⟩

/-- Of a list, every item is read. -/
theorem readable_array_iff {room : Nat} {vs : List Json} :
    Readable room (.array vs) ↔ room ≠ 0 ∧ ∀ v ∈ vs, Readable (room - 1) v := by
  constructor
  · rintro ⟨htidy, hdepth, hprintable⟩
    rw [tidy_array_iff] at htidy
    rw [depth_array_le_iff] at hdepth
    rw [Json.printable, printableItems_iff] at hprintable
    exact ⟨hdepth.1, fun v hv => ⟨htidy v hv, hdepth.2 v hv, hprintable v hv⟩⟩
  · rintro ⟨hroom, h⟩
    exact ⟨tidy_array_iff.mpr fun v hv => (h v hv).toTidy,
      depth_array_le_iff.mpr ⟨hroom, fun v hv => (h v hv).depth⟩,
      printableItems_iff.mpr fun v hv => (h v hv).printable⟩

/-- Of an object, every value is read, and each key is there once. -/
theorem readable_object_iff {room : Nat} {ms : Members} :
    Readable room (.object ms) ↔
      room ≠ 0 ∧ (Table.keys ms).Nodup ∧ ∀ m ∈ ms, Readable (room - 1) m.2 := by
  constructor
  · rintro ⟨htidy, hdepth, hprintable⟩
    obtain ⟨hkeys, hms⟩ := tidy_object_iff.mp htidy
    rw [depth_object_le_iff] at hdepth
    rw [Json.printable, printableMembers_iff] at hprintable
    exact ⟨hdepth.1, hkeys, fun m hm => ⟨hms m hm, hdepth.2 m hm, hprintable m hm⟩⟩
  · rintro ⟨hroom, hkeys, h⟩
    exact ⟨tidy_object_iff.mpr ⟨hkeys, fun m hm => (h m hm).toTidy⟩,
      depth_object_le_iff.mpr ⟨hroom, fun m hm => (h m hm).depth⟩,
      printableMembers_iff.mpr fun m hm => (h m hm).printable⟩

/-! ## 2. Numbers -/

theorem parseValue_digit (room fuel : Nat) {c : Char} (hc : isAsciiDigit c = true)
    (cs : List Char) :
    parseValue room (fuel + 1) (c :: cs) = parseMagnitude (c :: cs) false (c :: cs) := by
  rw [parseValue]
  all_goals
    intro rest h
    cases h
    exact absurd hc (by decide)

theorem parseValue_minus (room fuel : Nat) {c : Char} (hc : isAsciiDigit c = true)
    (cs : List Char) :
    parseValue room (fuel + 1) ('-' :: c :: cs) =
      parseMagnitude ('-' :: c :: cs) true (c :: cs) := by
  rw [parseValue]
  intro rest h
  cases h
  exact absurd hc (by decide)

/-- What is read as a number begins with a digit. -/
theorem digit_of_parseMagnitude {start cs : List Char} {negative : Bool} {r : Json × List Char}
    (h : parseMagnitude start negative cs = .ok r) :
    ∃ c rest, cs = c :: rest ∧ isAsciiDigit c = true := by
  cases cs with
  | nil => cases h
  | cons c rest =>
    refine ⟨c, rest, rfl, ?_⟩
    by_contra hc
    have hspan : (c :: rest).span isAsciiDigit = ([], c :: rest) := by
      rw [List.span_eq_takeWhile_dropWhile, List.takeWhile_cons_of_neg hc,
        List.dropWhile_cons_of_neg hc]
    rw [parseMagnitude, hspan] at h
    · cases h
    · rintro more hmore
      cases hmore
      exact hc rfl

/-- What the text of a value begins with. -/
def Opens (c : Char) : Prop :=
  c ∈ ['n', 't', 'f', '"', '[', '\x7b', '-'] ∨ isAsciiDigit c = true

/-- It is no blank, no end of a list, and no mark of a byte order. -/
theorem Opens.plain {c : Char} (h : Opens c) :
    isGap c = false ∧ c ≠ ']' ∧ (c.toNat == 0xFEFF) = false := by
  rcases h with h | h
  · simp only [List.mem_cons, List.not_mem_nil, or_false] at h
    rcases h with rfl | rfl | rfl | rfl | rfl | rfl | rfl <;> decide
  · refine ⟨?_, ?_, ?_⟩
    · by_contra hgap
      rw [Bool.not_eq_false, isGap, Bool.or_eq_true, Bool.or_eq_true, Bool.or_eq_true, beq_iff_eq,
        beq_iff_eq, beq_iff_eq, beq_iff_eq] at hgap
      rcases hgap with ((rfl | rfl) | rfl) | rfl <;> exact absurd h (by decide)
    · rintro rfl
      exact absurd h (by decide)
    · rw [isAsciiDigit, Bool.and_eq_true, decide_eq_true_iff, decide_eq_true_iff] at h
      have hlast : c.toNat ≤ '9'.toNat := h.2
      exact beq_false_of_ne fun hmark => absurd (hmark ▸ hlast) (by decide)

/-- The sign of a number. -/
def sign (negative : Bool) : List Char := if negative then ['-'] else []

/-- A number is read behind its sign. -/
theorem parseValue_signed {negative : Bool} {body : List Char} {v : Json}
    (h : ∀ start rest, Ends rest → parseMagnitude start negative (body ++ rest) = .ok (v, rest)) :
    (∃ c cs, sign negative ++ body = c :: cs ∧ Opens c) ∧
      ∀ room fuel rest, Ends rest →
        parseValue room (fuel + 1) (sign negative ++ body ++ rest) = .ok (v, rest) := by
  have hbody := h [] [] ends_nil
  rw [List.append_nil] at hbody
  obtain ⟨c, cs, rfl, hc⟩ := digit_of_parseMagnitude hbody
  cases negative with
  | true =>
    refine ⟨⟨'-', _, rfl, .inl (by decide)⟩, fun room fuel rest hrest => ?_⟩
    exact (parseValue_minus room fuel hc (cs ++ rest)).trans (h _ rest hrest)
  | false =>
    refine ⟨⟨c, cs, rfl, .inr hc⟩, fun room fuel rest hrest => ?_⟩
    exact (parseValue_digit room fuel hc (cs ++ rest)).trans (h _ rest hrest)

theorem parseMagnitude_int {n : Int} (h : isPrintableInt n = true) (start : List Char)
    {rest : List Char} (hrest : Ends rest) :
    parseMagnitude start (decide (n < 0)) (Nat.toDigits 10 n.natAbs ++ rest) =
      .ok (.int n, rest) := by
  rw [isPrintableInt, decide_eq_true_iff] at h
  rw [parseMagnitude_toDigits start _ h hrest]
  congr 3
  simp only [decide_eq_true_eq]
  split <;> omega

theorem intText_eq (n : Int) : intText n = sign (decide (n < 0)) ++ Nat.toDigits 10 n.natAbs := by
  rw [intText, sign]
  simp only [decide_eq_true_eq]

theorem floatText_eq {x : Binary64} (hx : x.isFinite = true) :
    floatText x = sign x.negative ++
      (if x.significand = 0 then ['0', '.', '0'] else x.shortest.text) := by
  have hnan : x.isNaN = false := by
    rw [Binary64.isFinite, bne_iff_ne] at hx
    rw [Binary64.isNaN, beq_false_of_ne hx, Bool.false_and]
  rw [floatText, hnan, if_neg Bool.false_ne_true, if_pos hx]
  rfl

/-! ## 3. Lists and objects -/

theorem skipGap_cons {c : Char} (hc : isGap c = false) (cs : List Char) :
    skipGap (c :: cs) = c :: cs :=
  List.dropWhile_cons_of_neg (by rw [hc]; exact Bool.false_ne_true)

theorem skipGap_blank (cs : List Char) : skipGap (' ' :: cs) = skipGap cs :=
  List.dropWhile_cons_of_pos rfl

theorem chars_head {room : Nat} {v : Json} (h : Readable room v) :
    ∃ c cs, chars v = c :: cs ∧ Opens c := by
  cases v with
  | null => exact ⟨'n', _, rfl, .inl (by decide)⟩
  | bool b =>
    cases b with
    | true => exact ⟨'t', _, rfl, .inl (by decide)⟩
    | false => exact ⟨'f', _, rfl, .inl (by decide)⟩
  | int n =>
    have hn := h.printable
    rw [printable] at hn
    rw [chars, intText_eq]
    exact (parseValue_signed fun start rest => parseMagnitude_int hn start).1
  | float x =>
    have hx := h.finite
    rw [finite] at hx
    rw [chars, floatText_eq hx]
    exact (parseValue_signed fun start rest => parseMagnitude_finite hx start).1
  | string s => exact ⟨'"', _, rfl, .inl (by decide)⟩
  | array vs => exact ⟨'[', _, rfl, .inl (by decide)⟩
  | object ms => exact ⟨'\x7b', _, rfl, .inl (by decide)⟩

/-- A list that is not empty is read as its items, with room for a level less. -/
theorem parseValue_array {room fuel : Nat} {c : Char} {cs : List Char} (hroom : room ≠ 0)
    (hc : Opens c) :
    parseValue room (fuel + 1) ('[' :: c :: cs) =
      (parseItems (room - 1) fuel (c :: cs)).map fun r => (.array r.1, r.2) := by
  rw [parseValue, if_neg hroom, skipGap_cons hc.plain.1]
  split
  · next hrest =>
    rw [List.cons.injEq] at hrest
    exact absurd hrest.1 hc.plain.2.1
  · cases parseItems (room - 1) fuel (c :: cs) with
    | ok r => rfl
    | error e => rfl

/-- An object that is not empty is read as its members, with room for a level less. -/
theorem parseValue_object {room fuel : Nat} {cs : List Char} (hroom : room ≠ 0) :
    parseValue room (fuel + 1) ('\x7b' :: '"' :: cs) =
      (parseMembers (room - 1) fuel ('"' :: cs)).map fun r =>
        (.object (Table.ofEntries r.1), r.2) := by
  rw [parseValue, if_neg hroom, skipGap_cons rfl]
  split
  · next hrest =>
    rw [List.cons.injEq] at hrest
    exact absurd hrest.1 (by decide)
  · cases parseMembers (room - 1) fuel ('"' :: cs) with
    | ok r => rfl
    | error e => rfl

/-- The last item. -/
theorem parseItems_last {room fuel : Nat} {cs rest : List Char} {v : Json}
    (h : parseValue room fuel cs = .ok (v, ']' :: rest)) :
    parseItems room (fuel + 1) cs = .ok ([v], rest) := by
  rw [parseItems, h]
  rfl

/-- An item before others. -/
theorem parseItems_next {room fuel : Nat} {cs more : List Char} {v : Json}
    (h : parseValue room fuel cs = .ok (v, ',' :: ' ' :: more)) :
    parseItems room (fuel + 1) cs =
      (parseItems room fuel (skipGap more)).map fun r => (v :: r.1, r.2) := by
  rw [parseItems, h]
  change (parseItems room fuel (skipGap (' ' :: more))).bind _ = _
  rw [skipGap_blank]
  cases parseItems room fuel (skipGap more) with
  | ok r => rfl
  | error e => rfl

/-- The members behind the value of a member. -/
def parseFurther (room fuel : Nat) (key : String) (r : Json × List Char) :
    Except Refusal (List (String × Json) × List Char) :=
  match skipGap r.2 with
  | '\x7d' :: rest => .ok ([(key, r.1)], rest)
  | ',' :: rest =>
    (parseMembers room fuel (skipGap rest)).map fun more => ((key, r.1) :: more.1, more.2)
  | rest => .error ⟨.noComma, rest⟩

/-- Of a member, the value is read behind the key. -/
theorem parseMembers_key (room fuel : Nat) (key : String) (cs : List Char) :
    parseMembers room (fuel + 1) (stringText key ++ ':' :: ' ' :: cs) =
      (parseValue room fuel (skipGap cs)).bind (parseFurther room fuel key) := by
  obtain ⟨body, hbody, hkey⟩ := parseString_stringText (stringText key ++ ':' :: ' ' :: cs) key
    (':' :: ' ' :: cs)
  rw [hbody] at hkey ⊢
  rw [parseMembers, hkey]
  change (parseValue room fuel (skipGap (' ' :: cs))).bind _ = _
  rw [skipGap_blank, String.ofList_toList]
  rfl

/-- The last member. -/
theorem parseMembers_last {room fuel : Nat} {key : String} {cs rest : List Char} {v : Json}
    (h : parseValue room fuel (skipGap cs) = .ok (v, '\x7d' :: rest)) :
    parseMembers room (fuel + 1) (stringText key ++ ':' :: ' ' :: cs) = .ok ([(key, v)], rest) := by
  rw [parseMembers_key, h]
  rfl

/-- A member before others. -/
theorem parseMembers_next {room fuel : Nat} {key : String} {cs more : List Char} {v : Json}
    (h : parseValue room fuel (skipGap cs) = .ok (v, ',' :: ' ' :: more)) :
    parseMembers room (fuel + 1) (stringText key ++ ':' :: ' ' :: cs) =
      (parseMembers room fuel (skipGap more)).map fun r => ((key, v) :: r.1, r.2) := by
  rw [parseMembers_key, h]
  change (parseMembers room fuel (skipGap (' ' :: more))).map _ = _
  rw [skipGap_blank]

/-! ## 4. Documents -/

theorem skipGap_chars {room : Nat} {v : Json} (h : Readable room v) (rest : List Char) :
    skipGap (chars v ++ rest) = chars v ++ rest := by
  obtain ⟨c, cs, hc, hopens⟩ := chars_head h
  rw [hc]
  exact skipGap_cons hopens.plain.1 _

theorem itemChars_cons (v w : Json) (ws : List Json) :
    itemChars (v :: w :: ws) = chars v ++ ',' :: ' ' :: itemChars (w :: ws) := rfl

theorem memberChars_cons (k : String) (v : Json) (n : String × Json) (ns : List (String × Json)) :
    memberChars ((k, v) :: n :: ns) =
      stringText k ++ ':' :: ' ' :: chars v ++ ',' :: ' ' :: memberChars (n :: ns) := rfl

theorem itemChars_head {room : Nat} {v : Json} (h : Readable room v) (vs : List Json) :
    ∃ c cs, itemChars (v :: vs) = c :: cs ∧ Opens c := by
  obtain ⟨c, cs, hc, hopens⟩ := chars_head h
  cases vs with
  | nil => exact ⟨c, cs, hc, hopens⟩
  | cons w ws => exact ⟨c, _, by rw [itemChars_cons, hc]; rfl, hopens⟩

theorem memberChars_head (m : String × Json) (ms : List (String × Json)) :
    ∃ cs, memberChars (m :: ms) = '"' :: cs := by
  cases ms with
  | nil => exact ⟨_, rfl⟩
  | cons n ns => exact ⟨_, rfl⟩

theorem skipGap_itemChars {room : Nat} {v : Json} (h : Readable room v) (vs : List Json)
    (rest : List Char) : skipGap (itemChars (v :: vs) ++ rest) = itemChars (v :: vs) ++ rest := by
  obtain ⟨c, cs, hc, hopens⟩ := itemChars_head h vs
  rw [hc]
  exact skipGap_cons hopens.plain.1 _

theorem skipGap_memberChars (m : String × Json) (ms : List (String × Json)) (rest : List Char) :
    skipGap (memberChars (m :: ms) ++ rest) = memberChars (m :: ms) ++ rest := by
  obtain ⟨cs, hc⟩ := memberChars_head m ms
  rw [hc]
  exact skipGap_cons rfl _

mutual

/-- **A value is read from its text, whatever follows it.** -/
theorem parseValue_chars : ∀ (v : Json) {room fuel : Nat} {rest : List Char}, Readable room v →
    Ends rest → 2 * (chars v).length ≤ fuel →
    parseValue room fuel (chars v ++ rest) = .ok (v, rest)
  | .null, room, fuel + 1, rest, _, _, _ => rfl
  | .bool true, room, fuel + 1, rest, _, _, _ => rfl
  | .bool false, room, fuel + 1, rest, _, _, _ => rfl
  | .int n, room, fuel + 1, rest, h, hrest, _ => by
    have hn := h.printable
    rw [printable] at hn
    rw [chars, intText_eq]
    exact (parseValue_signed fun start rest => parseMagnitude_int hn start).2 room fuel rest hrest
  | .float x, room, fuel + 1, rest, h, hrest, _ => by
    have hx := h.finite
    rw [finite] at hx
    rw [chars, floatText_eq hx]
    have hsigned := parseValue_signed fun start rest => parseMagnitude_finite hx start
    exact hsigned.2 room fuel rest hrest
  | .string s, room, fuel + 1, rest, _, _, _ => by
    obtain ⟨body, hbody, hs⟩ := parseString_stringText (stringText s ++ rest) s rest
    rw [chars]
    rw [hbody] at hs ⊢
    rw [parseValue, hs]
    exact congrArg (fun t => Except.ok (Json.string t, rest)) String.ofList_toList
  | .array [], room, fuel + 1, rest, h, _, _ => by
    rw [chars, List.append_assoc]
    exact if_neg (readable_array_iff.mp h).1
  | .array (v :: vs), room, fuel + 1, rest, h, _, hfuel => by
    obtain ⟨hroom, hvs⟩ := readable_array_iff.mp h
    obtain ⟨c, cs, hc, hopens⟩ := itemChars_head (hvs v List.mem_cons_self) vs
    rw [chars, List.length_append, List.length_cons, List.length_singleton] at hfuel
    have hitems : parseItems (room - 1) fuel (itemChars (v :: vs) ++ ']' :: rest) =
        .ok (v :: vs, rest) := parseItems_itemChars (v :: vs) (List.cons_ne_nil _ _) hvs (by omega)
    rw [chars, List.append_assoc, List.cons_append]
    rw [hc] at hitems ⊢
    exact (parseValue_array hroom hopens).trans (congrArg (Except.map _) hitems)
  | .object [], room, fuel + 1, rest, h, _, _ => by
    rw [chars, List.append_assoc]
    exact if_neg (readable_object_iff.mp h).1
  | .object (m :: ms), room, fuel + 1, rest, h, _, hfuel => by
    obtain ⟨hroom, hkeys, hms⟩ := readable_object_iff.mp h
    obtain ⟨cs, hc⟩ := memberChars_head m ms
    rw [chars, List.length_append, List.length_cons, List.length_singleton] at hfuel
    have hmembers : parseMembers (room - 1) fuel (memberChars (m :: ms) ++ '\x7d' :: rest) =
        .ok (m :: ms, rest) :=
      parseMembers_memberChars (m :: ms) (List.cons_ne_nil _ _) hms (by omega)
    rw [chars, List.append_assoc, List.cons_append]
    rw [hc] at hmembers ⊢
    refine (parseValue_object hroom).trans ((congrArg (Except.map _) hmembers).trans ?_)
    exact congrArg (fun ms => Except.ok (Json.object ms, rest)) (Table.ofEntries_of_nodup hkeys)
  | v, room, 0, rest, h, _, hfuel => by
    obtain ⟨c, cs, hc, -⟩ := chars_head h
    rw [hc, List.length_cons] at hfuel
    omega

/-- Items are read one after the other, to the end of their list. -/
theorem parseItems_itemChars : ∀ (vs : List Json) {room fuel : Nat} {rest : List Char}, vs ≠ [] →
    (∀ v ∈ vs, Readable room v) → 2 * (itemChars vs).length < fuel →
    parseItems room fuel (itemChars vs ++ ']' :: rest) = .ok (vs, rest)
  | [], _, _, _, hne, _, _ => absurd rfl hne
  | [v], room, fuel + 1, rest, _, h, hfuel =>
    parseItems_last (parseValue_chars v (h v List.mem_cons_self) (ends_cons (.inr (.inl rfl)) rest)
      (Nat.le_of_lt_succ hfuel))
  | v :: w :: ws, room, fuel + 1, rest, _, h, hfuel => by
    have hv := h v List.mem_cons_self
    have hws : ∀ u ∈ w :: ws, Readable room u := fun u hu => h u (List.mem_cons_of_mem _ hu)
    rw [itemChars_cons, List.length_append, List.length_cons, List.length_cons] at hfuel
    have hmore : parseItems room fuel (skipGap (itemChars (w :: ws) ++ ']' :: rest)) =
        .ok (w :: ws, rest) := by
      rw [skipGap_itemChars (hws w List.mem_cons_self)]
      exact parseItems_itemChars (w :: ws) (List.cons_ne_nil _ _) hws (by omega)
    have hvalue : parseValue room fuel (chars v ++
        ',' :: ' ' :: (itemChars (w :: ws) ++ ']' :: rest)) =
          .ok (v, ',' :: ' ' :: (itemChars (w :: ws) ++ ']' :: rest)) :=
      parseValue_chars v hv (ends_cons (.inl rfl) _) (by omega)
    rw [itemChars_cons, List.append_assoc]
    exact (parseItems_next hvalue).trans (congrArg _ hmore)

/-- Members are read one after the other, to the end of their object. -/
theorem parseMembers_memberChars : ∀ (ms : List (String × Json)) {room fuel : Nat}
    {rest : List Char}, ms ≠ [] → (∀ m ∈ ms, Readable room m.2) →
    2 * (memberChars ms).length < fuel →
    parseMembers room fuel (memberChars ms ++ '\x7d' :: rest) = .ok (ms, rest)
  | [], _, _, _, hne, _, _ => absurd rfl hne
  | [(k, v)], room, fuel + 1, rest, _, h, hfuel => by
    have hv : Readable room v := h (k, v) List.mem_cons_self
    rw [memberChars, List.length_append, List.length_cons, List.length_cons] at hfuel
    rw [memberChars, List.append_assoc, List.cons_append, List.cons_append]
    refine parseMembers_last ?_
    rw [skipGap_chars hv]
    exact parseValue_chars v hv (ends_cons (.inr (.inr rfl)) rest) (by omega)
  | (k, v) :: n :: ns, room, fuel + 1, rest, _, h, hfuel => by
    have hv : Readable room v := h (k, v) List.mem_cons_self
    have hns : ∀ m ∈ n :: ns, Readable room m.2 := fun m hm => h m (List.mem_cons_of_mem _ hm)
    rw [memberChars_cons, List.length_append, List.length_append, List.length_cons,
      List.length_cons, List.length_cons, List.length_cons] at hfuel
    have hmore : parseMembers room fuel (skipGap (memberChars (n :: ns) ++ '\x7d' :: rest)) =
        .ok (n :: ns, rest) := by
      rw [skipGap_memberChars]
      exact parseMembers_memberChars (n :: ns) (List.cons_ne_nil _ _) hns (by omega)
    have hvalue : parseValue room fuel (skipGap (chars v ++
        ',' :: ' ' :: (memberChars (n :: ns) ++ '\x7d' :: rest))) =
          .ok (v, ',' :: ' ' :: (memberChars (n :: ns) ++ '\x7d' :: rest)) := by
      rw [skipGap_chars hv]
      exact parseValue_chars v hv (ends_cons (.inl rfl) _) (by omega)
    rw [memberChars_cons, List.append_assoc, List.append_assoc, List.cons_append, List.cons_append]
    exact (parseMembers_next hvalue).trans (congrArg _ hmore)

end

/-- **A document is read back from its characters**, where there is room for its levels. -/
theorem parseChars_chars {room : Nat} {v : Json} (h : Readable room v) :
    parseChars room (chars v) = .ok v := by
  obtain ⟨c, cs, hc, hopens⟩ := chars_head h
  obtain ⟨hgap, -, hmark⟩ := hopens.plain
  have hvalue : parseValue room (2 * (chars v).length + 2) (chars v ++ []) = .ok (v, []) :=
    parseValue_chars v h ends_nil (Nat.le_add_right _ _)
  rw [List.append_nil, hc] at hvalue
  rw [hc, parseChars, hmark, if_neg Bool.false_ne_true, skipGap_cons hgap, hvalue]
  rfl

/-- **A document is read back from its text.** -/
theorem parse_text [Room] {v : Json} (h : Readable Room.reading v) : parse v.text = .ok v := by
  rw [parse, text, String.toList_ofList, parseChars_chars h]

end Steward.Json
