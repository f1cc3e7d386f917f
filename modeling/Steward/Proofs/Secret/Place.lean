import Steward.Proofs.Secret.Reference

/-!
# Where references meet

A place in the map of resolved secrets is the name of a secret and a key, joined by a slash.  A
secret may have a slash in its name, so two references can meet at one place, and then the later one
prevails.  Where no referenced secret has a slash in its name no two of them meet
(`alone_of_plain`).
-/

namespace Steward

/-! ## 1. Joined names -/

namespace SecretMap

theorem toList_keyOf (secret key : String) :
    (keyOf secret key).toList = secret.toList ++ '/' :: key.toList := by
  simp [keyOf]

theorem keyOf_right_inj {secret key key' : String} :
    keyOf secret key = keyOf secret key' ↔ key = key' := by
  rw [← String.toList_inj, toList_keyOf, toList_keyOf, List.append_cancel_left_eq,
    List.cons.injEq, String.toList_inj]
  exact ⟨And.right, fun h => ⟨rfl, h⟩⟩

/-- Up to the first slash it is the secret. -/
theorem keyOf_inj {secret secret' key key' : String} (h : '/' ∉ secret.toList)
    (h' : '/' ∉ secret'.toList) (heq : keyOf secret key = keyOf secret' key') :
    secret = secret' ∧ key = key' := by
  have hne {name : String} (hname : '/' ∉ name.toList) : ∀ c ∈ name.toList, (c != '/') = true :=
    fun c hc => bne_iff_ne.mpr fun hslash => hname (hslash ▸ hc)
  have htake := congrArg (fun place => place.toList.takeWhile (· != '/')) heq
  simp only [toList_keyOf] at htake
  rw [List.takeWhile_append_of_pos (hne h), List.takeWhile_append_of_pos (hne h')] at htake
  simp only [bne_self_eq_false, Bool.false_eq_true, not_false_eq_true, List.takeWhile_cons_of_neg,
    List.append_nil, String.toList_inj] at htake
  subst htake
  exact ⟨rfl, keyOf_right_inj.mp heq⟩

theorem connectionKey_ne_keyOf (secret key : String) : connectionKey ≠ keyOf secret key := by
  intro h
  have hslash : '/' ∈ connectionKey.toList := by
    rw [h, toList_keyOf]
    exact List.mem_append_right _ List.mem_cons_self
  exact absurd hslash (by decide)

end SecretMap

namespace Secret

/-! ## 2. Values at places -/

section

variable (f : Vault) (ns : String) (rs : List Reference)

/-- A reference is to a key that goes to this place. -/
def Occupied (place : String) : Prop :=
  ∃ r ∈ rs, ∃ key, r.Covers f ns key ∧ r.place key = place

/-- A reference is to a key that goes to this place, and has this value. -/
def Placed (place value : String) : Prop :=
  ∃ r ∈ rs, ∃ key, r.Covers f ns key ∧ r.place key = place ∧ Holds f ns r.secret key value

/-- No other reference meets one to this key of the secret. -/
def Alone (secret key : String) : Prop :=
  ∀ r ∈ rs, ∀ k, r.Covers f ns k → r.place k = SecretMap.keyOf secret key →
    r.secret = secret ∧ k = key

end

variable {f : Vault} {ns : String} {rs : List Reference} {d : Declared}

theorem Alone.holds {secret key value : String} (h : Alone f ns rs secret key)
    (hplaced : Placed f ns rs (SecretMap.keyOf secret key) value) :
    Holds f ns secret key value := by
  obtain ⟨r, hr, k, hcovers, hplace, hholds⟩ := hplaced
  obtain ⟨rfl, rfl⟩ := h r hr k hcovers hplace
  exact hholds

/-! ## 3. References that do not meet -/

theorem slot_of_mem {o : Origin} {r : Reference} (h : r ∈ o.references d) : r.slot = o.slot := by
  cases o <;>
  simp only [Origin.references, Origin.one, Origin.login, Origin.whole, List.mem_flatMap,
    List.mem_map, List.mem_cons, List.not_mem_nil, or_false] at h
  case connection => obtain ⟨_, -, rfl⟩ := h; rfl
  case downloadClients | proxies => obtain ⟨_, -, _, -, rfl | rfl⟩ := h <;> rfl
  all_goals obtain ⟨_, -, _, -, rfl⟩ := h; rfl

/-- Only the key of the connection has a name of its own. -/
theorem slot_of_mem_references {r : Reference} (h : r ∈ references d) :
    r.slot = none ∨ r.slot = some SecretMap.connectionKey := by
  obtain ⟨o, -, h⟩ := List.mem_flatMap.mp h
  rw [slot_of_mem h]
  cases o
  case connection => exact Or.inr rfl
  all_goals exact Or.inl rfl

/-- Secrets without a slash in their names do not meet. -/
theorem alone_of_plain (hplain : ∀ r ∈ references d, '/' ∉ r.secret.toList) {secret : String}
    (hsecret : '/' ∉ secret.toList) (key : String) : Alone f ns (references d) secret key := by
  intro r hr k _ hplace
  rcases slot_of_mem_references hr with hslot | hslot
  · rw [Reference.place, hslot, Option.getD_none] at hplace
    exact SecretMap.keyOf_inj (hplain r hr) hsecret hplace
  · rw [Reference.place, hslot, Option.getD_some] at hplace
    exact absurd hplace (SecretMap.connectionKey_ne_keyOf secret key)

end Secret

end Steward
