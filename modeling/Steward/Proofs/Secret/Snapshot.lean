import Steward.Proofs.Secret.Session

/-!
# One snapshot of each secret

However the store changes while calls resolve secrets of one namespace, each secret that they find
is read once (`SecretResolver._fetch`), and all that they come to is as of this reading; a secret
that is missing, or fails to be read, is asked for again when it is used again (`one_snapshot`).
The calls may be to one key, to all keys, to the key of a connection, to all secrets of a resource
and to the key of a registration, in any order, and may fail.
-/

namespace Steward.Secret

open Pass

/-! ## 1. Uses and readings -/

/-- The stored values that a use finds. -/
def found (x : Exchange) : Option SecretData :=
  match x with
  | ⟨.getSecret _ _, .ok data⟩ => data
  | _ => none

/-- A secret that was found is found unchanged at every later use. -/
def Steady (ys : List Exchange) : Prop :=
  ys.Pairwise fun x y => (found x).isSome → y.request = x.request → y = x

/-- The uses without those of a secret that was found before. -/
def readings : List Exchange → List Exchange
  | [] => []
  | x :: rest =>
    x :: if (found x).isSome then (readings rest).filter (·.request ≠ x.request) else readings rest

/-- What was found of each secret, whenever that was. -/
def snapshot (xs : List Exchange) : Vault := fun ns name =>
  .ok (xs.findSome? fun x => if x.request = .getSecret ns name then found x else none)

variable {ns : String} {xs ys : List Exchange}

theorem readings_cons_found {x : Exchange} (h : (found x).isSome) (rest : List Exchange) :
    readings (x :: rest) = x :: (readings rest).filter (·.request ≠ x.request) := by
  rw [readings, if_pos h]

theorem readings_cons_missed {x : Exchange} (h : found x = none) (rest : List Exchange) :
    readings (x :: rest) = x :: readings rest := by
  rw [readings, if_neg (by simp [h])]

/-- A secret that was found is not read again. -/
theorem pairwise_readings (ys : List Exchange) :
    (readings ys).Pairwise fun x y => (found x).isSome → y.request ≠ x.request := by
  induction ys with
  | nil => exact .nil
  | cons y ys ih =>
    rw [readings]
    split
    · refine .cons (fun z hz _ => ?_) (ih.filter _)
      exact of_decide_eq_true (List.mem_filter.mp hz).2
    · rename_i hmissed
      exact .cons (fun z _ hfound => absurd hfound hmissed) ih

/-- A use of a secret that was not found before is a reading. -/
theorem readings_append_cons {before later : List Exchange} {y : Exchange}
    (h : ∀ x ∈ before, x.request = y.request → found x = none) :
    ∃ rest, readings (before ++ y :: later) = readings before ++ y :: rest := by
  induction before with
  | nil => exact ⟨_, rfl⟩
  | cons x before ih =>
    rw [List.forall_mem_cons] at h
    obtain ⟨rest, hrest⟩ := ih h.2
    rw [List.cons_append, readings, hrest, readings]
    split
    · rename_i hfound
      have hother : y.request ≠ x.request := fun hsame => by
        rw [h.1 hsame.symm] at hfound
        cases hfound
      refine ⟨rest.filter (·.request ≠ x.request), ?_⟩
      rw [List.filter_append, List.filter_cons_of_pos (by simpa using hother), List.cons_append]
    · exact ⟨rest, rfl⟩

/-- What is found is found by a reading. -/
theorem mem_readings_of_found {y : Exchange} (hsteady : Steady ys) (hy : y ∈ ys) :
    (found y).isSome → y ∈ readings ys := by
  intro hfound
  induction ys with
  | nil => cases hy
  | cons x ys ih =>
    obtain ⟨hx, hys⟩ := List.pairwise_cons.mp hsteady
    rw [readings]
    rcases List.mem_cons.mp hy with rfl | hy
    · exact List.mem_cons_self
    · split
      · rename_i hxfound
        by_cases hsame : y.request = x.request
        · rw [hx y hy hxfound hsame]
          exact List.mem_cons_self
        · exact .tail _ (List.mem_filter.mpr ⟨ih hys hy, decide_eq_true hsame⟩)
      · exact .tail _ (ih hys hy)

/-- The snapshot has what a reading found. -/
theorem snapshot_of_mem {name : String} {data : SecretData}
    (honce : xs.Pairwise fun x y => (found x).isSome → y.request ≠ x.request)
    (h : use ns name (.ok (some data)) ∈ xs) : snapshot xs ns name = .ok (some data) := by
  refine congrArg Except.ok ?_
  induction xs with
  | nil => cases h
  | cons x xs ih =>
    obtain ⟨hx, hxs⟩ := List.pairwise_cons.mp honce
    rw [List.findSome?_cons]
    rcases List.mem_cons.mp h with rfl | h
    · rw [if_pos rfl]
      rfl
    · split
      · rename_i data' hdata
        split at hdata
        · rename_i hrequest
          exact absurd hrequest.symm (hx _ h (Option.isSome_of_eq_some hdata))
        · cases hdata
      · exact ih hxs h

/-! ## 2. From what is kept to readings -/

/-- The use is of a secret that is kept. -/
def isKept (ns : String) (cache : Cache) (x : Exchange) : Bool :=
  match x.request with
  | .getSecret n name => n = ns && (Table.get? cache (cacheKey ns name)).isSome
  | _ => false

theorem isKept_use {cache : Cache} {name : String} {reply : Except Failure (Option SecretData)} :
    isKept ns cache (use ns name reply) = (Table.get? cache (cacheKey ns name)).isSome := by
  simp [isKept]

/-- Keeping a secret makes its own uses kept, and no others. -/
theorem isKept_set {cache : Cache} {name : String} {data : SecretData} (x : Exchange) :
    isKept ns (Table.set cache (cacheKey ns name) data) x =
      (isKept ns cache x || x.request = .getSecret ns name) := by
  obtain ⟨request, reply⟩ := x
  cases request with
  | getSecret n other =>
    rw [isKept, isKept]
    dsimp only
    rw [Table.get?_set]
    by_cases hn : n = ns
    · subst hn
      by_cases hother : other = name
      · simp [hother]
      · rw [if_neg fun h => hother (cacheKey_inj h)]
        simp [hother]
    · simp [hn]
  | _ => simp [isKept]

theorem found_missed {name : String} {reply : Except Failure (Option SecretData)}
    (h : ∀ data, reply ≠ .ok (some data)) : found (use ns name reply) = none := by
  cases reply with
  | error e => rfl
  | ok data =>
    cases data with
    | none => rfl
    | some data => exact absurd rfl (h data)

/-- Uses of what is kept are replied with it, however much is kept besides. -/
theorem eq_use_of_recalls {cache after : Cache} (h : Recalls ns cache ys xs after) {name : String}
    {data : SecretData} (hkept : Table.get? cache (cacheKey ns name) = some data) {y : Exchange}
    (hy : y ∈ ys) (hrequest : y.request = .getSecret ns name) :
    y = use ns name (.ok (some data)) := by
  induction h with
  | nil cache => cases hy
  | kept hget _ ih =>
    rcases List.mem_cons.mp hy with rfl | hy
    · cases hrequest
      rw [hget] at hkept
      cases hkept
      rfl
    · exact ih hkept hy
  | found hget _ ih =>
    rcases List.mem_cons.mp hy with rfl | hy
    · cases hrequest
      rw [hget] at hkept
      cases hkept
    · refine ih ?_ hy
      rw [Table.get?_set, if_neg, hkept]
      intro hsame
      rw [hsame, hget] at hkept
      cases hkept
  | missed hget _ _ ih =>
    rcases List.mem_cons.mp hy with rfl | hy
    · cases hrequest
      rw [hget] at hkept
      cases hkept
    · exact ih hkept hy

theorem steady_of_recalls {cache after : Cache} (h : Recalls ns cache ys xs after) : Steady ys := by
  induction h with
  | nil cache => exact .nil
  | kept hget h ih => exact .cons (fun _ hy _ => eq_use_of_recalls h hget hy) ih
  | found _ h ih =>
    exact .cons (fun _ hy _ => eq_use_of_recalls h (by rw [Table.get?_set, if_pos rfl]) hy) ih
  | missed _ hreply _ ih =>
    refine .cons (fun y _ hfound => ?_) ih
    rw [found_missed hreply] at hfound
    cases hfound

/-- What is asked are the readings of what is not kept. -/
theorem filter_readings_of_recalls {cache after : Cache} (h : Recalls ns cache ys xs after) :
    xs = (readings ys).filter (!isKept ns cache ·) := by
  induction h with
  | nil cache => rfl
  | @kept cache after name data ys xs hget _ ih =>
    have hmine : isKept ns cache (use ns name (.ok (some data))) = true := by
      rw [isKept_use, hget]
      rfl
    rw [ih, readings_cons_found rfl, List.filter_cons_of_neg (by simp [hmine]), List.filter_filter]
    refine List.filter_congr fun x _ => ?_
    by_cases hsame : x.request = .getSecret ns name
    · have hx : isKept ns cache x = true := by
        rw [isKept, hsame]
        simp [hget]
      simp [hx]
    · simp [hsame]
  | @found cache after name data ys xs hget _ ih =>
    have hmine : isKept ns cache (use ns name (.ok (some data))) = false := by
      rw [isKept_use, hget]
      rfl
    rw [ih, readings_cons_found rfl, List.filter_cons_of_pos (by simp [hmine]), List.filter_filter]
    refine congrArg (_ :: ·) (List.filter_congr fun x _ => ?_)
    rw [isKept_set, Bool.not_or]
    simp
  | @missed cache after name reply ys xs hget hreply _ ih =>
    have hmine : isKept ns cache (use ns name reply) = false := by
      rw [isKept_use, hget]
      rfl
    rw [ih, readings_cons_missed (found_missed hreply), List.filter_cons_of_pos (by simp [hmine])]

/-- Where nothing was kept before, the readings are what is asked. -/
theorem eq_readings_of_recalls {after : Cache} (h : Recalls ns [] ys xs after) :
    xs = readings ys := by
  rw [filter_readings_of_recalls h]
  refine List.filter_eq_self.mpr fun x _ => ?_
  rw [isKept]
  split
  · rw [Table.get?_nil, Option.isSome_none, Bool.and_false, Bool.not_false]
  · rfl

/-! ## 3. What calls come to -/

/-- The answer is what the vault makes of the call. -/
def Call.Tells (f : Vault) (ns : String) : Call → Answer → Prop
  | .value name key purpose, .text v => valueIn f ns name key purpose = .ok v
  | .values name purpose, .table vs => valuesIn f ns name purpose = .ok vs
  | .connection c, .table vs => connectionIn f ns c = .ok vs
  | .resource m, .table vs => (readAll f ns (references m.declared)).map Table.ofEntries = .ok vs
  | .registration m, .text v => ∃ candidate ∈ registrationCandidates m,
      valueIn f ns candidate.1 candidate.2 "" = .ok v ∧ v.isEmpty = false
  | _, _ => False

section Telling

variable {f : Vault}

theorem valueIn_of_always {name key purpose v : String} {reply : Except Failure (Option SecretData)}
    (hf : ∀ data, reply = .ok (some data) → f ns name = .ok (some data))
    (h : valueIn (always reply) ns name key purpose = .ok v) :
    valueIn f ns name key purpose = .ok v := by
  obtain ⟨data, stored, hreply, hstored, hdecode⟩ := valueIn_eq_ok_iff.mp h
  exact valueIn_eq_ok_iff.mpr ⟨data, stored, hf data hreply, hstored, hdecode⟩

theorem valuesIn_of_always {name purpose : String} {vs : Table String}
    {reply : Except Failure (Option SecretData)}
    (hf : ∀ data, reply = .ok (some data) → f ns name = .ok (some data))
    (h : valuesIn (always reply) ns name purpose = .ok vs) :
    valuesIn f ns name purpose = .ok vs := by
  obtain ⟨data, hreply, hall⟩ := valuesIn_eq_ok_iff.mp h
  exact valuesIn_eq_ok_iff.mpr ⟨data, hf data hreply, hall⟩

theorem read_of_always {r : Reference} {es : List (String × String)}
    {reply : Except Failure (Option SecretData)}
    (hf : ∀ data, reply = .ok (some data) → f ns r.secret = .ok (some data))
    (h : r.read (always reply) ns = .ok es) : r.read f ns = .ok es := by
  rw [Reference.read] at h ⊢
  split at h
  · obtain ⟨v, hv, rfl⟩ := map_eq_ok_iff.mp h
    rw [valueIn_of_always hf hv]
    rfl
  · obtain ⟨vs, hvs, rfl⟩ := map_eq_ok_iff.mp h
    rw [valuesIn_of_always hf hvs]
    rfl

/-- References that all resolved are read from the vault. -/
theorem InTurn.readAll {rs : List Reference} {out : Except Failure (List (String × String))}
    (h : InTurn ns rs ys out) {es : List (String × String)} (hout : out = .ok es)
    (hf : ∀ name data, use ns name (.ok (some data)) ∈ ys → f ns name = .ok (some data)) :
    Secret.readAll f ns rs = .ok es := by
  induction h generalizing es with
  | nil =>
    cases hout
    rfl
  | fails _ => cases hout
  | @resolves r rs reply fs ys rest hread _ ih =>
    obtain ⟨gs, rfl, rfl⟩ := map_eq_ok_iff.mp hout
    have hfs := read_of_always (fun data hdata => hf _ data (hdata ▸ List.mem_cons_self)) hread
    have hgs := ih rfl fun name data hmem => hf name data (.tail _ hmem)
    rw [← List.singleton_append, readAll_append, readAll_singleton, hfs, hgs]
    rfl

/-- The value of a candidate that was usable is read from the vault. -/
theorem Tries.valueIn {m : Managed} {failures : List String} {candidates : List (String × String)}
    {out : Except Failure String} (h : Tries m failures candidates ys out) {v : String}
    (hout : out = .ok v)
    (hf : ∀ name data, use m.ns name (.ok (some data)) ∈ ys → f m.ns name = .ok (some data)) :
    ∃ candidate ∈ candidates,
      Secret.valueIn f m.ns candidate.1 candidate.2 "" = .ok v ∧ v.isEmpty = false := by
  induction h with
  | exhausted _ => cases hout
  | usable hv hfull =>
    cases hout
    exact ⟨_, List.mem_cons_self, valueIn_of_always
      (fun data hdata => hf _ data (hdata ▸ List.mem_cons_self)) hv, hfull⟩
  | empty _ _ _ ih | unresolved _ _ ih =>
    obtain ⟨candidate, hmem, htold⟩ := ih hout fun name data hmem => hf name data (.tail _ hmem)
    exact ⟨candidate, .tail _ hmem, htold⟩
  | broken _ _ => cases hout

theorem connectionIn_eq_readAll {c : Spec.Connection} :
    connectionIn f ns c =
      (readAll f ns ((connectionUses c).flatMap Use.references)).map Table.ofEntries := by
  rw [connectionIn, connectionUses]
  cases c.apiKeyRef with
  | none => rfl
  | some ref =>
    change _ = (readAll f ns [_]).map _
    rw [readAll_singleton]
    have hmap (r : Except Failure String) :
        r.map (fun v => Table.setAll [] [(SecretMap.connectionKey, v)]) =
          (r.map fun v => [(SecretMap.connectionKey, v)]).map Table.ofEntries := by
      cases r <;> rfl
    exact hmap _

/-- A call that succeeds tells what is in a vault that has what its uses found. -/
theorem Call.Comes.tells {c : Call} {out : Except Failure Answer} {answer : Answer}
    (h : c.Comes ns ys out) (hout : out = .ok answer) (hwithin : c.Within ns)
    (hf : ∀ name data, use ns name (.ok (some data)) ∈ ys → f ns name = .ok (some data)) :
    c.Tells f ns answer := by
  cases h with
  | value reply =>
    obtain ⟨v, hv, rfl⟩ := map_eq_ok_iff.mp hout
    exact valueIn_of_always (fun data hdata => hf _ data (hdata ▸ List.mem_cons_self)) hv
  | values reply =>
    obtain ⟨vs, hvs, rfl⟩ := map_eq_ok_iff.mp hout
    exact valuesIn_of_always (fun data hdata => hf _ data (hdata ▸ List.mem_cons_self)) hvs
  | connection hturn =>
    obtain ⟨es, hes, rfl⟩ := map_eq_ok_iff.mp hout
    rw [Call.Tells, connectionIn_eq_readAll, hturn.readAll hes hf]
    rfl
  | resource hturn =>
    obtain ⟨es, hes, rfl⟩ := map_eq_ok_iff.mp hout
    rw [Call.Tells, hturn.readAll hes hf]
    rfl
  | registration htries =>
    obtain ⟨v, hv, rfl⟩ := map_eq_ok_iff.mp hout
    cases hwithin
    exact htries.valueIn hv hf

/-- All that the calls told is in a vault that has what their uses found. -/
theorem Uses.tells {calls : List Call} {outs : List (Except Failure Answer)}
    (h : Uses ns calls ys outs) (hwithin : ∀ c ∈ calls, c.Within ns)
    (hf : ∀ name data, use ns name (.ok (some data)) ∈ ys → f ns name = .ok (some data)) :
    ∀ c answer, (c, .ok answer) ∈ calls.zip outs → c.Tells f ns answer := by
  induction h with
  | nil => exact fun _ _ hmem => nomatch hmem
  | cons hcomes _ ih =>
    rw [List.forall_mem_cons] at hwithin
    intro c answer hmem
    rcases List.mem_cons.mp hmem with heq | hmem
    · obtain ⟨rfl, hout⟩ := Prod.mk.inj heq
      exact hcomes.tells hout.symm hwithin.1 fun name data h =>
        hf name data (List.mem_append_left _ h)
    · exact ih hwithin.2 (fun name data h => hf name data (List.mem_append_right _ h)) c answer hmem

end Telling

/-! ## 4. One snapshot -/

/-- What calls read and come to, as of one reading of each secret. -/
structure OneSnapshot (ns : String) (calls : List Call) (xs : List Exchange)
    (outs : List (Except Failure Answer)) : Prop where
  /-- The calls come to what the replies to their uses of secrets make of them.  A use of a secret
  that was found before is replied as it was found, and is not asked; one of a secret that was not
  found before, be it missing or its reading failed, is asked. -/
  uses : ∃ ys, Uses ns calls ys outs ∧ Steady ys ∧ xs = readings ys ∧
    ∀ before y later, ys = before ++ y :: later →
      (∀ x ∈ before, x.request = y.request → found x = none) →
        ∃ rest, xs = readings before ++ y :: rest
  /-- A secret that was found is not read again. -/
  once : xs.Pairwise fun x y => (found x).isSome → y.request ≠ x.request
  /-- All values are those of the one reading of their secret. -/
  tells : ∀ c answer, (c, .ok answer) ∈ calls.zip outs → c.Tells (snapshot xs) ns answer

/-- **One snapshot of each secret.**  Calls of one namespace that begin without secrets read each
secret that they find once, whatever the store replies. -/
theorem one_snapshot {calls : List Call} (hwithin : ∀ c ∈ calls, c.Within ns)
    {outs : List (Except Failure Answer)} {after : Cache} (h : Runs ns [] calls xs outs after) :
    OneSnapshot ns calls xs outs := by
  obtain ⟨ys, huses, hrecalls⟩ := h.recalls hwithin
  have hsteady := steady_of_recalls hrecalls
  obtain rfl := eq_readings_of_recalls hrecalls
  have honce := pairwise_readings ys
  refine ⟨⟨ys, huses, hsteady, rfl, ?_⟩, honce, huses.tells hwithin fun name data hmem => ?_⟩
  · rintro before y later rfl hmissed
    exact readings_append_cons hmissed
  · exact snapshot_of_mem honce (mem_readings_of_found hsteady hmem rfl)

/-- A user name and a password that are resolved apart are of one reading.  The secret of the
service is missing when it is first used, and there when it is used again. -/
theorem one_snapshot_shows :
    let shows : Resource := { kind := "SonarrConfig", name := "shows", spec :=
      [("connection", .object [("url", .string "http://shows")]),
        ("downloadClients", .array [.object [("name", .string "qb"), ("url", .string "http://qb"),
          ("credentialsSecretRef", .object [("name", .string "qb")])]])] }
    let qb : SecretData := [("username", encode "admin"), ("password", encode "secret")]
    let key : SecretData := [("apiKey", encode "k")]
    ∃ m, Managed.ofResource shows = .ok m ∧
      let calls := [.value "qb" "username" "", .registration m, .resource m, .registration m]
      let xs := [use "default" "qb" (.ok (some qb)), use "default" "sonarr-api-key" (.ok none),
        use "default" "shows-api-key" (.error (.timeout "late")),
        use "default" "sonarr-api-key" (.ok (some key))]
      let outs := [.ok (.text "admin"), .error (.timeout "late"),
        .ok (.table [("qb/username", "admin"), ("qb/password", "secret")]), .ok (.text "k")]
      (∀ c ∈ calls, c.Within "default") ∧
        Runs "default" [] calls xs outs [("default/qb", qb), ("default/sonarr-api-key", key)] ∧
        OneSnapshot "default" calls xs outs := by
  intro shows qb key
  refine ⟨_, rfl, ?_⟩
  intro calls xs outs
  have hwithin : ∀ c ∈ calls, c.Within "default" := by
    simp only [calls, List.forall_mem_cons]
    exact ⟨trivial, rfl, rfl, rfl, List.forall_mem_nil _⟩
  have hruns : Runs "default" [] calls xs outs
      [("default/qb", qb), ("default/sonarr-api-key", key)] := by
    change Runs "default" [] calls ([_] ++ ([_, _] ++ ([] ++ ([_] ++ [])))) outs _
    exact .cons (.ask (.done _)) (.cons (.ask (.ask (.done _)))
      (.cons (.done _) (.cons (.ask (.done _)) (.nil _))))
  exact ⟨hwithin, hruns, one_snapshot hwithin hruns⟩

end Steward.Secret
