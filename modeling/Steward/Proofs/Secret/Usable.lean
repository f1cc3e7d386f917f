import Steward.Proofs.Secret.Place
import Steward.Proofs.Secret.Session

/-!
# The first usable key

The key that a service is registered with is looked for in three places (`places`).  Where reading
the store gives a secret or nothing, the first place counts that has a value which is not empty;
places before it may be missing, lack the key, fail to decode or be empty.  If there is none, the
error tells what failed, in order (`FirstUsable`).

`SecretResolver.resolve_registration_api_key` comes to this of what the resolver sees of the store,
which is what it has kept, and the store for the rest (`seen`).  What it has kept came from the same
store (`Filled`), under the name of the namespace and that of the secret joined by a slash
(`SecretResolver._fetch`).  A resolver is made for one pass and reads one namespace, so what it sees
is what the store holds (`registration_key_usable`); so it would be for several namespaces without a
slash in their names.
-/

namespace Steward.Secret

open Pass

/-! ## 1. Stores and places -/

/-- The secrets of a store, by namespace and name. -/
abbrev Held := String → String → Option SecretData

/-- Reading the store gives a secret or nothing. -/
def vault (held : Held) : Vault := fun ns name => .ok (held ns name)

/-- Where the key of a registration is looked for, in order: the reference of the connection, and
then the secrets named after the type of service and after the resource. -/
def places (m : Managed) : List (String × String) :=
  (match m.connection.apiKeyRef with
    | some ref => [(ref.name, if ref.key.getD "" = "" then "apiKey" else ref.key.getD "")]
    | none => []) ++
  [(m.service ++ "-api-key", "apiKey"), (m.name ++ "-api-key", "apiKey")]

/-- The value in a place, or why there is none. -/
def valueOf (held : Held) (ns : String) (place : String × String) : Except SecretError String :=
  match held ns place.1 with
  | none => .error (.notFound ns place.1 "")
  | some data =>
    match Table.get? data place.2 with
    | none => .error (.noKey ns place.1 place.2 "")
    | some stored => decode stored

/-- The place has a value that is not empty. -/
def Usable (held : Held) (ns : String) (place : String × String) (v : String) : Prop :=
  valueOf held ns place = .ok v ∧ v ≠ ""

/-- What is reported of the places that fail, in order. -/
def reports (held : Held) (ns : String) (ps : List (String × String)) : List String :=
  ps.filterMap fun place => match valueOf held ns place with
    | .error e => some e.message
    | .ok _ => none

/-- The outcome is the value of the first usable place, or an error that tells what failed. -/
structure FirstUsable (held : Held) (m : Managed) (out : Except Failure String) : Prop where
  returns : ∀ v, out = .ok v ↔ ∃ before place after, places m = before ++ place :: after ∧
    Usable held m.ns place v ∧ ∀ p ∈ before, ∀ w, ¬ Usable held m.ns p w
  full : out ≠ .ok ""
  raises : (∃ e, out = .error e) ↔ ∀ place ∈ places m, ∀ v, ¬ Usable held m.ns place v
  error : ∀ e, out = .error e → e = .secret
    (.noRegistrationKey m.service m.name (reports held m.ns (places m)))
  message : ∀ e, out = .error e → e.message =
    "could not resolve API key for " ++ m.service ++ "/" ++ m.name ++ ": " ++
      if (reports held m.ns (places m)).isEmpty then "all candidates were empty"
      else "; ".intercalate (reports held m.ns (places m))

variable {held : Held} {m : Managed} {ns : String}

theorem registrationCandidates_eq (m : Managed) : registrationCandidates m = places m := by
  rw [registrationCandidates, places]
  cases m.connection.apiKeyRef with
  | none => rfl
  | some ref =>
    have hkey : keyOr ref.key SecretMap.standardApiKey =
        if ref.key.getD "" = "" then "apiKey" else ref.key.getD "" := by
      cases ref.key with
      | none => rfl
      | some key =>
        rw [keyOr, Option.getD_some]
        exact if_congr String.isEmpty_iff rfl rfl
    rw [Option.toList_some, List.map_singleton, hkey]
    rfl

theorem valueIn_vault (held : Held) (ns name key : String) :
    valueIn (vault held) ns name key "" = (valueOf held ns (name, key)).mapError .secret := by
  rw [valueIn, dataIn, vault, valueOf]
  cases held ns name with
  | none => rfl
  | some data =>
    dsimp only
    cases Table.get? data key <;> rfl

/-! ## 2. The first usable place -/

/-- The value of a place, if it is usable. -/
def usable? (held : Held) (ns : String) (place : String × String) : Option String :=
  match valueOf held ns place with
  | .ok v => if v = "" then none else some v
  | .error _ => none

theorem usable?_eq_some_iff {place : String × String} {v : String} :
    usable? held ns place = some v ↔ Usable held ns place v := by
  rw [usable?, Usable]
  cases valueOf held ns place with
  | error e => simp
  | ok w =>
    simp only [Option.ite_none_left_eq_some, Option.some.injEq, Except.ok.injEq]
    exact ⟨fun ⟨hw, hv⟩ => ⟨hv, hv ▸ hw⟩, fun ⟨hv, hw⟩ => ⟨hv ▸ hw, hv⟩⟩

theorem usable?_eq_none_iff {place : String × String} :
    usable? held ns place = none ↔ ∀ v, ¬ Usable held ns place v := by
  rw [Option.eq_none_iff_forall_ne_some]
  simp only [ne_eq, usable?_eq_some_iff]

/-- Trying places one after the other comes to the first usable one, or to all that failed. -/
theorem firstIn_vault (held : Held) (m : Managed) (failures : List String)
    (ps : List (String × String)) :
    firstIn (vault held) m failures ps = match ps.findSome? (usable? held m.ns) with
      | some v => .ok v
      | none => .error (.secret
          (.noRegistrationKey m.service m.name (failures ++ reports held m.ns ps))) := by
  induction ps generalizing failures with
  | nil => rw [firstIn, List.findSome?_nil, reports, List.filterMap_nil, List.append_nil]
  | cons place ps ih =>
    obtain ⟨name, key⟩ := place
    rw [firstIn, valueIn_vault, List.findSome?_cons, usable?, reports, List.filterMap_cons]
    cases valueOf held m.ns (name, key) with
    | error e =>
      change firstIn (vault held) m (failures ++ [e.message]) ps = _
      rw [ih, List.append_assoc]
      rfl
    | ok v =>
      change (if v.isEmpty then firstIn (vault held) m failures ps else .ok v) = _
      by_cases hempty : v = ""
      · rw [if_pos (String.isEmpty_iff.mpr hempty), ih]
        simp only [if_pos hempty]
        rfl
      · rw [if_neg fun h => hempty (String.isEmpty_iff.mp h)]
        simp only [if_neg hempty]

theorem firstUsable_keyIn (held : Held) (m : Managed) :
    FirstUsable held m (keyIn (vault held) m) := by
  rw [keyIn, registrationCandidates_eq, firstIn_vault, List.nil_append]
  cases hfirst : (places m).findSome? (usable? held m.ns) with
  | some v =>
    obtain ⟨before, place, after, hsplit, hplace, hbefore⟩ :=
      List.findSome?_eq_some_iff.mp hfirst
    have husable := usable?_eq_some_iff.mp hplace
    have hnone : ∀ p ∈ before, ∀ w, ¬ Usable held m.ns p w := fun p hp =>
      usable?_eq_none_iff.mp (hbefore p hp)
    refine ⟨fun w => ⟨?_, ?_⟩, ?_, ?_, fun _ h => (nomatch h), fun _ h => (nomatch h)⟩
    · rintro ⟨⟩
      exact ⟨before, place, after, hsplit, husable, hnone⟩
    · rintro ⟨before', place', after', hsplit', husable', hnone'⟩
      have hfirst' := List.findSome?_eq_some_iff.mpr ⟨before', place', after', hsplit',
        usable?_eq_some_iff.mpr husable', fun p hp => usable?_eq_none_iff.mpr (hnone' p hp)⟩
      rw [hfirst, Option.some.injEq] at hfirst'
      rw [hfirst']
    · rintro ⟨⟩
      exact husable.2 rfl
    · refine iff_of_false (fun ⟨_, h⟩ => nomatch h) fun hall => ?_
      exact hall place (hsplit ▸ List.mem_append_right _ List.mem_cons_self) v husable
  | none =>
    have hall : ∀ place ∈ places m, ∀ v, ¬ Usable held m.ns place v := fun place hplace =>
      usable?_eq_none_iff.mp (List.findSome?_eq_none_iff.mp hfirst place hplace)
    refine ⟨fun v => iff_of_false (fun h => nomatch h) ?_, fun h => (nomatch h),
      iff_of_true ⟨_, rfl⟩ hall, ?_, ?_⟩
    · rintro ⟨before, place, after, hsplit, husable, -⟩
      exact hall place (hsplit ▸ List.mem_append_right _ List.mem_cons_self) v husable
    · rintro e ⟨⟩
      rfl
    · rintro e ⟨⟩
      rfl

/-! ## 3. What is seen of the store -/

/-- What the resolver sees: what it has kept under the joined name, and the store for the rest. -/
def seen (held : Held) (cache : Cache) : Held := fun ns name =>
  (Table.get? cache (cacheKey ns name)).or (held ns name)

/-- Whatever calls have been made of these namespaces on a store that holds `held`, latest first,
they have left this cache. -/
inductive Filled (held : Held) : List String → Cache → Prop where
  | nil : Filled held [] []
  | call {spaces : List String} {cache after : Cache} {ns : String} {c : Call} {xs : List Exchange}
      {out : Except Failure Answer} : Filled held spaces cache → c.Within ns →
      Follows (c.pass ns) cache xs out after → (∀ x ∈ xs, From (vault held) x) →
      Filled held (ns :: spaces) after

/-- No secret of another one of the namespaces has the joined name of a place of the key. -/
def Clear (m : Managed) (spaces : List String) : Prop :=
  ∀ place ∈ places m, ∀ ns ∈ spaces, ∀ name, cacheKey ns name = cacheKey m.ns place.1 → ns = m.ns

variable {cache after : Cache} {xs ys : List Exchange} {spaces : List String}

/-- Every use of a secret is replied with what is seen of it. -/
theorem reply_of_recalls (h : Recalls ns cache ys xs after)
    (hxs : ∀ x ∈ xs, From (vault held) x) {name : String}
    {reply : Except Failure (Option SecretData)} (hmem : use ns name reply ∈ ys) :
    reply = vault (seen held cache) ns name := by
  induction h with
  | nil _ => cases hmem
  | @kept cache after other data ys xs hget _ ih =>
    rcases List.mem_cons.mp hmem with heq | hmem
    · cases heq
      rw [vault, seen, hget, Option.some_or]
    · exact ih hxs hmem
  | @found cache after other data ys xs hget _ ih =>
    rw [List.forall_mem_cons] at hxs
    have hdata : .ok (some data) = vault held ns other := hxs.1 ns other _ rfl
    rcases List.mem_cons.mp hmem with heq | hmem
    · cases heq
      rw [vault, seen, hget, Option.none_or]
      exact hdata
    · rw [ih hxs.2 hmem, vault, vault, seen, seen, Table.get?_set]
      -- what was just kept is what the store holds
      split
      · rename_i hsame
        rw [hsame, hget, cacheKey_inj hsame, Option.none_or, Option.some_or]
        exact hdata
      · rfl
  | @missed cache after other reply ys xs hget _ _ ih =>
    rw [List.forall_mem_cons] at hxs
    rcases List.mem_cons.mp hmem with heq | hmem
    · cases heq
      rw [vault, seen, hget, Option.none_or]
      exact hxs.1 ns _ _ rfl
    · exact ih hxs.2 hmem

/-- The outcome is what is seen makes of the candidates. -/
theorem firstIn_of_tries {g : Held} {failures : List String} {ps : List (String × String)}
    {out : Except Failure String} (h : Tries m failures ps ys out)
    (hreplies : ∀ name reply, use m.ns name reply ∈ ys → reply = vault g m.ns name) :
    out = firstIn (vault g) m failures ps := by
  have hvalue {name key : String} {reply : Except Failure (Option SecretData)}
      (hreply : reply = vault g m.ns name) :
      valueIn (always reply) m.ns name key "" = valueIn (vault g) m.ns name key "" :=
    valueIn_congr hreply
  induction h with
  | exhausted _ => rfl
  | usable hv hfull =>
    rw [hvalue (hreplies _ _ List.mem_cons_self)] at hv
    rw [firstIn, hv]
    exact (if_neg (by rw [hfull]; exact Bool.false_ne_true)).symm
  | empty hv hempty _ ih =>
    rw [hvalue (hreplies _ _ List.mem_cons_self)] at hv
    rw [firstIn, hv, ih fun name reply hmem => hreplies name reply (.tail _ hmem)]
    exact (if_pos hempty).symm
  | unresolved he _ ih =>
    rw [hvalue (hreplies _ _ List.mem_cons_self)] at he
    rw [firstIn, he, ih fun name reply hmem => hreplies name reply (.tail _ hmem)]
  | @broken failures name key rest reply e he hother =>
    -- what is seen of a store is a secret or nothing
    rw [hvalue (hreplies _ _ List.mem_cons_self), valueIn_vault] at he
    obtain ⟨s, -, hs⟩ := mapError_eq_error_iff.mp he
    exact absurd ⟨s, hs.symm⟩ hother

/-- What is kept after a call was kept before, or was read from the store. -/
theorem kept_of_recalls (h : Recalls ns cache ys xs after) (hxs : ∀ x ∈ xs, From (vault held) x)
    {key : String} {data : SecretData} (hget : Table.get? after key = some data) :
    Table.get? cache key = some data ∨
      ∃ name, key = cacheKey ns name ∧ held ns name = some data := by
  induction h with
  | nil _ => exact .inl hget
  | kept _ _ ih => exact ih hxs hget
  | @found cache after name data' ys xs _ _ ih =>
    rw [List.forall_mem_cons] at hxs
    have hdata : .ok (some data') = vault held ns name := hxs.1 ns name _ rfl
    rcases ih hxs.2 hget with hkept | hread
    · rw [Table.get?_set] at hkept
      split at hkept
      · rename_i hkey
        cases hkept
        exact .inr ⟨name, hkey, (Except.ok.inj hdata).symm⟩
      · exact .inl hkept
    · exact .inr hread
  | missed _ _ _ ih =>
    rw [List.forall_mem_cons] at hxs
    exact ih hxs.2 hget

/-- **What is kept came from the store**, and is kept under the joined name. -/
theorem Filled.kept (h : Filled held spaces cache) {key : String} {data : SecretData}
    (hget : Table.get? cache key = some data) :
    ∃ ns ∈ spaces, ∃ name, key = cacheKey ns name ∧ held ns name = some data := by
  induction h with
  | nil => cases hget
  | call _ hwithin hcall hfrom ih =>
    obtain ⟨ys, -, hrecalls⟩ := Call.recalls hwithin hcall
    rcases kept_of_recalls hrecalls hfrom hget with hkept | ⟨name, hkey, hdata⟩
    · obtain ⟨ns, hns, hread⟩ := ih hkept
      exact ⟨ns, .tail _ hns, hread⟩
    · exact ⟨_, List.mem_cons_self, name, hkey, hdata⟩

/-- Where nothing else has its joined name, a place is seen as it is. -/
theorem Filled.seen_eq (h : Filled held spaces cache) (hclear : Clear m spaces)
    {place : String × String} (hplace : place ∈ places m) :
    seen held cache m.ns place.1 = held m.ns place.1 := by
  rw [seen]
  cases hget : Table.get? cache (cacheKey m.ns place.1) with
  | none => rw [Option.none_or]
  | some data =>
    obtain ⟨ns, hns, name, hkey, hdata⟩ := h.kept hget
    obtain rfl := hclear place hplace ns hns name hkey.symm
    rw [cacheKey_inj hkey, hdata, Option.some_or]

theorem clear_of_same (h : ∀ ns ∈ spaces, ns = m.ns) : Clear m spaces :=
  fun _ _ ns hns _ _ => h ns hns

/-- Up to the first slash the joined name is the namespace. -/
theorem clear_of_slashless (hplain : '/' ∉ m.ns.toList) (h : ∀ ns ∈ spaces, '/' ∉ ns.toList) :
    Clear m spaces :=
  fun _ _ ns hns _ hkey => (SecretMap.keyOf_inj (h ns hns) hplain hkey).1

/-- What is found depends only on what the places hold. -/
theorem firstIn_vault_congr {g : Held} {failures : List String} {ps : List (String × String)}
    (h : ∀ place ∈ ps, g m.ns place.1 = held m.ns place.1) :
    firstIn (vault g) m failures ps = firstIn (vault held) m failures ps := by
  induction ps generalizing failures with
  | nil => rfl
  | cons place ps ih =>
    obtain ⟨name, key⟩ := place
    rw [List.forall_mem_cons] at h
    have hvalue : valueIn (vault g) m.ns name key "" = valueIn (vault held) m.ns name key "" :=
      valueIn_congr (congrArg Except.ok h.1)
    simp only [firstIn, hvalue, ih h.2]

/-! ## 4. The key that is found -/

/-- The resolver has read the namespace of the resource only, or namespaces without a slash in their
names. -/
def Plain (m : Managed) (spaces : List String) : Prop :=
  (∀ ns ∈ spaces, ns = m.ns) ∨ ('/' ∉ m.ns.toList ∧ ∀ ns ∈ spaces, '/' ∉ ns.toList)

theorem clear_of_plain (h : Plain m spaces) : Clear m spaces :=
  h.elim clear_of_same fun hplain => clear_of_slashless hplain.1 hplain.2

section World

variable {σ : Type} {world : Program.World signature σ}

/-- Whatever was resolved before on the same store, the key that the resolver finds is that of what
it sees. -/
theorem registrationKey_run (hworld : Behind (vault held) world) (m : Managed) (s : σ) :
    (((registrationKey m).run cache).run world s).1.1 = keyIn (vault (seen held cache)) m := by
  obtain ⟨xs, hfollows, hplays⟩ :=
    Program.exists_follows_run world ((registrationKey m).run cache) s
  obtain ⟨ys, htries, hrecalls⟩ := firstUsable_recalls hfollows
  exact firstIn_of_tries htries fun name reply hmem =>
    reply_of_recalls hrecalls (hworld.from hplays) hmem

/-- **The key of a registration is the first usable one.**  Whatever the resolver has kept of the
same store, it returns the first value in the three places that is not empty, or else tells what
failed there. -/
theorem registration_key_usable (hworld : Behind (vault held) world)
    (hfilled : Filled held spaces cache) (hplain : Plain m spaces) (s : σ) :
    FirstUsable held m (((registrationKey m).run cache).run world s).1.1 := by
  have hkey : keyIn (vault (seen held cache)) m = keyIn (vault held) m := by
    rw [keyIn, keyIn, registrationCandidates_eq]
    exact firstIn_vault_congr fun place hplace =>
      hfilled.seen_eq (clear_of_plain hplain) hplace
  rw [registrationKey_run hworld m s, hkey]
  exact firstUsable_keyIn held m

end World

/-- The key of the reference is empty and was read before, the secret of the type is missing, and
the one of the name is found, or cannot be decoded. -/
theorem registration_key_usable_shows :
    let shows : Resource := { kind := "SonarrConfig", name := "shows", spec :=
      [("connection", .object [("url", .string "http://shows"),
        ("apiKeySecretRef", .object [("name", .string "own"), ("key", .string "token")])])] }
    let own : SecretData := [("token", encode "")]
    let held (named : SecretData) : Held := fun _ name =>
      if name = "own" then some own else if name = "shows-api-key" then some named else none
    let good : Held := held [("apiKey", encode "k")]
    let bad : Held := held [("apiKey", "?")]
    let cache : Cache := [("default/own", own)]
    ∃ m out out', Managed.ofResource shows = .ok m ∧ Plain m ["default"] ∧
      Behind (vault good) (keeping (vault good)) ∧ Filled good ["default"] cache ∧
      (((registrationKey m).run cache).run (keeping (vault good)) ()).1.1 = out ∧ out = .ok "k" ∧
      FirstUsable good m out ∧
      (((registrationKey m).run cache).run (keeping (vault bad)) ()).1.1 = out' ∧
      out' = .error (.secret (.noRegistrationKey "sonarr" "shows"
        ["secret default/sonarr-api-key not found",
          "secret value is not valid base64: Only base64 data is allowed"])) ∧
      FirstUsable bad m out' := by
  intro shows own held good bad cache
  have hfilled (named : SecretData) : Filled (held named) ["default"] cache := by
    refine @Filled.call _ [] [] cache "default" (.value "own" "token" "")
      [use "default" "own" (.ok (some own))] (.ok (.text "")) .nil trivial (.ask (.done _)) ?_
    refine List.forall_mem_singleton.mpr ?_
    rintro ns name reply ⟨⟩
    rfl
  obtain ⟨m, hm, hns⟩ : ∃ m, Managed.ofResource shows = .ok m ∧ m.ns = "default" :=
    ⟨_, rfl, rfl⟩
  have hplain : Plain m ["default"] := .inl (List.forall_mem_singleton.mpr hns.symm)
  cases hm
  exact ⟨_, _, _, rfl, hplain, behind_keeping _, hfilled _, rfl, by decide +kernel,
    registration_key_usable (behind_keeping _) (hfilled _) hplain (), rfl, by decide +kernel,
    registration_key_usable (behind_keeping _) (hfilled _) hplain ()⟩

end Steward.Secret
