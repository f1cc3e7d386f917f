import Steward.Proofs.Json.Reading

/-!
# Documents that are nested too deep

Whatever else is right with a document, its text is not read if the document has more levels than
there is room for.  All that stands before the first level too many is read, as it stands in the
text of a document, and so it is this level that reading ends with, and nothing else
(`parseValue_deep`).
-/

namespace Steward.Json

variable {room more : Nat}

/-- A list or an object was to be opened beyond the room for it. -/
def Refusal.Deep (r : Refusal) : Prop := r.problem = .deepList ∨ r.problem = .deepObject

/-! ## 1. Parts -/

/-- A list is opened beyond the room for it. -/
theorem parseValue_list_zero (fuel : Nat) (cs : List Char) :
    parseValue 0 (fuel + 1) ('[' :: cs) = .error ⟨.deepList, '[' :: cs⟩ := rfl

/-- An object is opened beyond the room for it. -/
theorem parseValue_object_zero (fuel : Nat) (cs : List Char) :
    parseValue 0 (fuel + 1) ('\x7b' :: cs) = .error ⟨.deepObject, '\x7b' :: cs⟩ := rfl

/-- The text is refused for a level too many. -/
def EndsDeep {α : Type} (outcome : Except Refusal α) : Prop := ∃ r, outcome = .error r ∧ r.Deep

theorem EndsDeep.map {α β : Type} {outcome : Except Refusal α} (h : EndsDeep outcome) (f : α → β) :
    EndsDeep (outcome.map f) := by
  obtain ⟨r, rfl, hr⟩ := h
  exact ⟨r, rfl, hr⟩

/-- Items are not read behind one that is not. -/
theorem EndsDeep.items {fuel : Nat} {cs : List Char} (h : EndsDeep (parseValue room fuel cs)) :
    EndsDeep (parseItems room (fuel + 1) cs) := by
  obtain ⟨r, hr, hdeep⟩ := h
  refine ⟨r, ?_, hdeep⟩
  rw [parseItems, hr]
  rfl

/-- Members are not read behind one that is not. -/
theorem EndsDeep.members {fuel : Nat} {cs : List Char}
    (h : EndsDeep (parseValue room fuel (skipGap cs))) (key : String) :
    EndsDeep (parseMembers room (fuel + 1) (stringText key ++ ':' :: ' ' :: cs)) := by
  obtain ⟨r, hr, hdeep⟩ := h
  refine ⟨r, ?_, hdeep⟩
  rw [parseMembers_key, hr]
  rfl

/-! ## 2. Documents -/

mutual

/-- **A value with more levels than there is room for is refused for its nesting.** -/
theorem parseValue_deep : ∀ (v : Json) {room more fuel : Nat} (rest : List Char), Readable more v →
    room < v.depth → 2 * (chars v).length ≤ fuel → EndsDeep (parseValue room fuel (chars v ++ rest))
  | .array vs, 0, _, fuel + 1, rest, _, _, _ => ⟨_, parseValue_list_zero fuel _, .inl rfl⟩
  | .array [], room + 1, _, _, _, _, hdepth, _ => by
    rw [depth, depthOfItems] at hdepth
    omega
  | .array (v :: vs), room + 1, more, fuel + 1, rest, h, hdepth, hfuel => by
    obtain ⟨-, hvs⟩ := readable_array_iff.mp h
    obtain ⟨c, cs, hc, hopens⟩ := itemChars_head (hvs v List.mem_cons_self) vs
    rw [chars, List.length_append, List.length_cons, List.length_singleton] at hfuel
    have hitems : EndsDeep (parseItems room fuel (itemChars (v :: vs) ++ ']' :: rest)) :=
      parseItems_deep (v :: vs) rest hvs (Nat.lt_of_succ_lt_succ hdepth) (by omega)
    rw [chars, List.append_assoc, List.cons_append]
    rw [hc] at hitems ⊢
    exact (parseValue_array (Nat.succ_ne_zero room) hopens) ▸ hitems.map _
  | .object ms, 0, _, fuel + 1, rest, _, _, _ => ⟨_, parseValue_object_zero fuel _, .inr rfl⟩
  | .object [], room + 1, _, _, _, _, hdepth, _ => by
    rw [depth, depthOfMembers] at hdepth
    omega
  | .object (m :: ms), room + 1, more, fuel + 1, rest, h, hdepth, hfuel => by
    obtain ⟨-, -, hms⟩ := readable_object_iff.mp h
    obtain ⟨cs, hc⟩ := memberChars_head m ms
    rw [chars, List.length_append, List.length_cons, List.length_singleton] at hfuel
    have hmembers : EndsDeep (parseMembers room fuel (memberChars (m :: ms) ++ '\x7d' :: rest)) :=
      parseMembers_deep (m :: ms) rest hms (Nat.lt_of_succ_lt_succ hdepth) (by omega)
    rw [chars, List.append_assoc, List.cons_append]
    rw [hc] at hmembers ⊢
    exact (parseValue_object (Nat.succ_ne_zero room)) ▸ hmembers.map _
  | v, room, more, 0, rest, h, _, hfuel => by
    obtain ⟨c, cs, hc, -⟩ := chars_head h
    rw [hc, List.length_cons] at hfuel
    omega

/-- The items before the first with a level too many are read, and it is not. -/
theorem parseItems_deep : ∀ (vs : List Json) {room more fuel : Nat} (rest : List Char),
    (∀ v ∈ vs, Readable more v) → room < depthOfItems vs → 2 * (itemChars vs).length < fuel →
    EndsDeep (parseItems room fuel (itemChars vs ++ ']' :: rest))
  | [v], room, more, fuel + 1, rest, h, hdepth, hfuel => by
    rw [depthOfItems, depthOfItems, Nat.max_zero] at hdepth
    exact (parseValue_deep v (']' :: rest) (h v List.mem_cons_self) hdepth
      (Nat.le_of_lt_succ hfuel)).items
  | v :: w :: ws, room, more, fuel + 1, rest, h, hdepth, hfuel => by
    have hv := h v List.mem_cons_self
    have hws : ∀ u ∈ w :: ws, Readable more u := fun u hu => h u (List.mem_cons_of_mem _ hu)
    rw [itemChars_cons, List.length_append, List.length_cons, List.length_cons] at hfuel
    rw [itemChars_cons, List.append_assoc]
    -- either the first item is read, and it is one of the others, or it is the first itself
    by_cases hfits : v.depth ≤ room
    · have hmore : EndsDeep (parseItems room fuel (itemChars (w :: ws) ++ ']' :: rest)) :=
        parseItems_deep (w :: ws) rest hws
          ((lt_max_iff.mp hdepth).resolve_left (Nat.not_lt.mpr hfits)) (by omega)
      have hvalue := parseValue_chars v (hv.of_depth hfits)
        (ends_cons (.inl rfl) (' ' :: (itemChars (w :: ws) ++ ']' :: rest)))
        (show 2 * (chars v).length ≤ fuel by omega)
      rw [List.cons_append, List.cons_append, parseItems_next hvalue,
        skipGap_itemChars (hws w List.mem_cons_self)]
      exact hmore.map _
    · exact (parseValue_deep v (',' :: ' ' :: (itemChars (w :: ws) ++ ']' :: rest)) hv
        (Nat.lt_of_not_le hfits) (by omega)).items
  | v :: vs, _, _, 0, _, _, _, hfuel => absurd hfuel (Nat.not_lt_zero _)

/-- The members before the first with a level too many are read, and it is not. -/
theorem parseMembers_deep : ∀ (ms : List (String × Json)) {room more fuel : Nat}
    (rest : List Char), (∀ m ∈ ms, Readable more m.2) → room < depthOfMembers ms →
    2 * (memberChars ms).length < fuel →
    EndsDeep (parseMembers room fuel (memberChars ms ++ '\x7d' :: rest))
  | [(k, v)], room, more, fuel + 1, rest, h, hdepth, hfuel => by
    have hv : Readable more v := h (k, v) List.mem_cons_self
    rw [depthOfMembers, depthOfMembers, Nat.max_zero] at hdepth
    rw [memberChars, List.length_append, List.length_cons, List.length_cons] at hfuel
    rw [memberChars, List.append_assoc, List.cons_append, List.cons_append]
    refine EndsDeep.members ?_ k
    rw [skipGap_chars hv]
    exact parseValue_deep v ('\x7d' :: rest) hv hdepth (by omega)
  | (k, v) :: n :: ns, room, more, fuel + 1, rest, h, hdepth, hfuel => by
    have hv : Readable more v := h (k, v) List.mem_cons_self
    have hns : ∀ m ∈ n :: ns, Readable more m.2 := fun m hm => h m (List.mem_cons_of_mem _ hm)
    rw [memberChars_cons, List.length_append, List.length_append, List.length_cons,
      List.length_cons, List.length_cons, List.length_cons] at hfuel
    rw [memberChars_cons, List.append_assoc, List.append_assoc, List.cons_append, List.cons_append,
      List.cons_append, List.cons_append]
    by_cases hfits : v.depth ≤ room
    · have hmore : EndsDeep (parseMembers room fuel (memberChars (n :: ns) ++ '\x7d' :: rest)) :=
        parseMembers_deep (n :: ns) rest hns
          ((lt_max_iff.mp hdepth).resolve_left (Nat.not_lt.mpr hfits)) (by omega)
      have hvalue := parseValue_chars v (hv.of_depth hfits)
        (ends_cons (.inl rfl) (' ' :: (memberChars (n :: ns) ++ '\x7d' :: rest)))
        (show 2 * (chars v).length ≤ fuel by omega)
      rw [← skipGap_chars hv] at hvalue
      rw [parseMembers_next hvalue, skipGap_memberChars]
      exact hmore.map _
    · refine EndsDeep.members ?_ k
      rw [skipGap_chars hv]
      exact parseValue_deep v (',' :: ' ' :: (memberChars (n :: ns) ++ '\x7d' :: rest)) hv
        (Nat.lt_of_not_le hfits) (by omega)
  | m :: ms, _, _, 0, _, _, _, hfuel => absurd hfuel (Nat.not_lt_zero _)

end

/-- Nothing about a document is beyond reading, but perhaps its nesting. -/
def Legible (v : Json) : Prop := Readable v.depth v

theorem Readable.legible {v : Json} (h : Readable room v) : Legible v := h.of_depth (Nat.le_refl _)

/-- **A document is read back from its text exactly if it is not nested too deep.**  If it is, then
this is why it is not. -/
theorem parse_text_cases [Room] {v : Json} (h : Legible v) :
    (v.depth ≤ Room.reading → parse v.text = .ok v) ∧
      (Room.reading < v.depth → EndsDeep (parse v.text)) := by
  refine ⟨fun hfits => parse_text (h.of_depth hfits), fun hdepth => ?_⟩
  obtain ⟨c, cs, hc, hopens⟩ := chars_head h
  obtain ⟨hgap, -, hmark⟩ := hopens.plain
  obtain ⟨r, hr, hdeep⟩ := parseValue_deep v [] h hdepth
    (show 2 * (chars v).length ≤ 2 * (chars v).length + 2 from Nat.le_add_right _ _)
  rw [List.append_nil, hc] at hr
  refine ⟨r, ?_, hdeep⟩
  rw [parse, text, String.toList_ofList, hc, parseChars, hmark, if_neg Bool.false_ne_true,
    skipGap_cons hgap, hr]
  rfl

end Steward.Json
