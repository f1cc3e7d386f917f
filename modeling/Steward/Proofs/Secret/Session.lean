import Steward.Proofs.Secret.Complete

/-!
# Calls that share what they read

The calls that resolve secrets keep what they read for one another.  What each of them comes to is
said here without anything being kept: from the replies to its uses of secrets, one for each use
(`Call.Comes`).  What is kept spares asking: along a run, the uses of a secret that was kept are
replied with what was kept and are not asked, and all others are asked (`Recalls`).  This is shown
for one use (`fetch_recalls`) and from it for every call (`Call.recalls`) and for calls one after
the other (`Runs.recalls`).
-/

namespace Steward.Secret

open Pass

/-! ## 1. Calls -/

/-- A call that resolves secrets. -/
inductive Call where
  /-- One key of a secret. -/
  | value (name key purpose : String)
  /-- All keys of a secret. -/
  | values (name purpose : String)
  | connection (connection : Spec.Connection)
  /-- All secrets that a resource refers to. -/
  | resource (m : Managed)
  /-- The key that the service of a resource is registered with. -/
  | registration (m : Managed)

inductive Answer where
  | text (value : String)
  | table (values : Table String)
  deriving DecidableEq, Repr

/-- The resource of the call, if it is for one, is of the namespace. -/
def Call.Within (ns : String) : Call → Prop
  | .resource m | .registration m => m.ns = ns
  | _ => True

/-- The call as a pass. -/
def Call.pass (ns : String) : Call → Pass Answer
  | .value name key purpose => do return .text (← Secret.value ns name key purpose)
  | .values name purpose => do return .table (← Secret.values ns name purpose)
  | .connection c => do return .table (← resolveConnection ns c)
  | .resource m => do return .table (← resolve m)
  | .registration m => do return .text (← registrationKey m)

/-- The calls are made one after the other, and each has the secrets that those before it have
kept. -/
inductive Runs (ns : String) :
    Cache → List Call → List Exchange → List (Except Failure Answer) → Cache → Prop where
  | nil (cache : Cache) : Runs ns cache [] [] [] cache
  | cons {cache mid after : Cache} {c : Call} {calls : List Call} {xs ys : List Exchange}
      {out : Except Failure Answer} {outs : List (Except Failure Answer)} :
      Follows (c.pass ns) cache xs out mid → Runs ns mid calls ys outs after →
        Runs ns cache (c :: calls) (xs ++ ys) (out :: outs) after

/-! ## 2. What calls come to, use by use -/

/-- Every reading is replied the same. -/
def always (reply : Except Failure (Option SecretData)) : Vault := fun _ _ => reply

/-- A use of a secret with what it is replied. -/
abbrev use (ns name : String) (reply : Except Failure (Option SecretData)) : Exchange :=
  ⟨.getSecret ns name, reply⟩

/-- References are resolved in turn, up to the first that does not resolve. -/
inductive InTurn (ns : String) :
    List Reference → List Exchange → Except Failure (List (String × String)) → Prop where
  | nil : InTurn ns [] [] (.ok [])
  | fails {r : Reference} {rs : List Reference} {reply : Except Failure (Option SecretData)}
      {e : Failure} :
      r.read (always reply) ns = .error e → InTurn ns (r :: rs) [use ns r.secret reply] (.error e)
  | resolves {r : Reference} {rs : List Reference} {reply : Except Failure (Option SecretData)}
      {es : List (String × String)} {ys : List Exchange}
      {out : Except Failure (List (String × String))} :
      r.read (always reply) ns = .ok es → InTurn ns rs ys out →
        InTurn ns (r :: rs) (use ns r.secret reply :: ys) (out.map (es ++ ·))

/-- Candidates are tried in turn, up to the first whose value is not empty; `failures` are the
texts of those that failed before. -/
inductive Tries (m : Managed) :
    List String → List (String × String) → List Exchange → Except Failure String → Prop where
  | exhausted (failures : List String) :
      Tries m failures [] [] (.error (.secret (.noRegistrationKey m.service m.name failures)))
  | usable {failures : List String} {name key v : String} {rest : List (String × String)}
      {reply : Except Failure (Option SecretData)} :
      valueIn (always reply) m.ns name key "" = .ok v → v.isEmpty = false →
        Tries m failures ((name, key) :: rest) [use m.ns name reply] (.ok v)
  | empty {failures : List String} {name key v : String} {rest : List (String × String)}
      {reply : Except Failure (Option SecretData)} {ys : List Exchange}
      {out : Except Failure String} :
      valueIn (always reply) m.ns name key "" = .ok v → v.isEmpty = true →
        Tries m failures rest ys out →
          Tries m failures ((name, key) :: rest) (use m.ns name reply :: ys) out
  | unresolved {failures : List String} {name key : String} {rest : List (String × String)}
      {reply : Except Failure (Option SecretData)} {e : SecretError} {ys : List Exchange}
      {out : Except Failure String} :
      valueIn (always reply) m.ns name key "" = .error (.secret e) →
        Tries m (failures ++ [e.message]) rest ys out →
          Tries m failures ((name, key) :: rest) (use m.ns name reply :: ys) out
  | broken {failures : List String} {name key : String} {rest : List (String × String)}
      {reply : Except Failure (Option SecretData)} {e : Failure} :
      valueIn (always reply) m.ns name key "" = .error e → ¬ e.OfSecret →
        Tries m failures ((name, key) :: rest) [use m.ns name reply] (.error e)

/-- The call uses these secrets, is replied this at each use, and comes to the outcome. -/
inductive Call.Comes (ns : String) : Call → List Exchange → Except Failure Answer → Prop where
  | value {name key purpose : String} (reply : Except Failure (Option SecretData)) :
      Call.Comes ns (.value name key purpose) [use ns name reply]
        ((valueIn (always reply) ns name key purpose).map .text)
  | values {name purpose : String} (reply : Except Failure (Option SecretData)) :
      Call.Comes ns (.values name purpose) [use ns name reply]
        ((valuesIn (always reply) ns name purpose).map .table)
  | connection {c : Spec.Connection} {ys : List Exchange}
      {out : Except Failure (List (String × String))} :
      InTurn ns ((connectionUses c).flatMap Use.references) ys out →
        Call.Comes ns (.connection c) ys (out.map fun es => .table (Table.ofEntries es))
  | resource {m : Managed} {ys : List Exchange} {out : Except Failure (List (String × String))} :
      InTurn ns (references m.declared) ys out →
        Call.Comes ns (.resource m) ys (out.map fun es => .table (Table.ofEntries es))
  | registration {m : Managed} {ys : List Exchange} {out : Except Failure String} :
      Tries m [] (registrationCandidates m) ys out →
        Call.Comes ns (.registration m) ys (out.map .text)

/-- The calls use these secrets one after the other, and come to the outcomes. -/
inductive Uses (ns : String) :
    List Call → List Exchange → List (Except Failure Answer) → Prop where
  | nil : Uses ns [] [] []
  | cons {c : Call} {calls : List Call} {ys zs : List Exchange} {out : Except Failure Answer}
      {outs : List (Except Failure Answer)} :
      c.Comes ns ys out → Uses ns calls zs outs → Uses ns (c :: calls) (ys ++ zs) (out :: outs)

/-! ## 3. What is kept is not asked -/

/-- Beginning with the secrets `cache`, the uses are asked but for those of a secret that is kept,
which are replied with it. -/
inductive Recalls (ns : String) : Cache → List Exchange → List Exchange → Cache → Prop where
  | nil (cache : Cache) : Recalls ns cache [] [] cache
  | kept {cache after : Cache} {name : String} {data : SecretData} {ys xs : List Exchange} :
      Table.get? cache (cacheKey ns name) = some data → Recalls ns cache ys xs after →
        Recalls ns cache (use ns name (.ok (some data)) :: ys) xs after
  | found {cache after : Cache} {name : String} {data : SecretData} {ys xs : List Exchange} :
      Table.get? cache (cacheKey ns name) = none →
        Recalls ns (Table.set cache (cacheKey ns name) data) ys xs after →
          Recalls ns cache (use ns name (.ok (some data)) :: ys)
            (use ns name (.ok (some data)) :: xs) after
  | missed {cache after : Cache} {name : String} {reply : Except Failure (Option SecretData)}
      {ys xs : List Exchange} :
      Table.get? cache (cacheKey ns name) = none → (∀ data, reply ≠ .ok (some data)) →
        Recalls ns cache ys xs after →
          Recalls ns cache (use ns name reply :: ys) (use ns name reply :: xs) after

variable {ns : String} {cache mid after : Cache} {xs zs : List Exchange}

theorem Recalls.append {ys ws : List Exchange} (h : Recalls ns cache ys xs mid)
    (k : Recalls ns mid ws zs after) : Recalls ns cache (ys ++ ws) (xs ++ zs) after := by
  induction h with
  | nil _ => exact k
  | kept hget _ ih => exact .kept hget (ih k)
  | found hget _ ih => exact .found hget (ih k)
  | missed hget hreply _ ih => exact .missed hget hreply (ih k)

/-- **One use.**  A secret comes from what is kept or from the reply to asking for it, and is kept
if it is there. -/
theorem fetch_recalls {name purpose : String} {out : Except Failure SecretData}
    (h : Follows (fetch ns name purpose) cache xs out after) :
    ∃ reply, out = dataIn (always reply) ns name purpose ∧
      Recalls ns cache [use ns name reply] xs after := by
  rw [fetch, follows_cache_bind] at h
  split at h
  · rename_i data hget
    obtain ⟨rfl, rfl, rfl⟩ := follows_pure.mp h
    exact ⟨.ok (some data), rfl, .kept hget (.nil _)⟩
  · rename_i hget
    rcases follows_bind.mp h with ⟨ys, zs, found, mid, rfl, hask, hfound⟩ | ⟨e, rfl, hask⟩
    · obtain ⟨reply, rfl, hreply, rfl⟩ := follows_ask_settle.mp hask
      subst hreply
      cases found with
      | none =>
        obtain ⟨rfl, rfl, rfl⟩ := follows_throw.mp hfound
        exact ⟨.ok none, rfl, .missed hget (by rintro _ ⟨⟩) (.nil _)⟩
      | some data =>
        dsimp only at hfound
        rw [follows_remember_bind] at hfound
        obtain ⟨rfl, rfl, rfl⟩ := follows_pure.mp hfound
        exact ⟨.ok (some data), rfl, .found hget (.nil _)⟩
    · obtain ⟨reply, rfl, hreply, rfl⟩ := follows_ask_settle.mp hask
      subst hreply
      exact ⟨.error e, rfl, .missed hget (by rintro _ ⟨⟩) (.nil _)⟩

/-- A secret and what is made of it without asking. -/
theorem fetch_bind_recalls {α : Type} {name purpose : String} {f : SecretData → Pass α}
    {g : SecretData → Except Failure α} {out : Except Failure α}
    (hf : ∀ data cache xs out after, Follows (f data) cache xs out after →
      xs = [] ∧ out = g data ∧ after = cache)
    (h : Follows (fetch ns name purpose >>= f) cache xs out after) :
    ∃ reply, out = (dataIn (always reply) ns name purpose >>= g) ∧
      Recalls ns cache [use ns name reply] xs after := by
  rcases follows_bind.mp h with ⟨ys, zs, data, mid, rfl, hfetch, hdata⟩ | ⟨e, rfl, hfetch⟩
  · obtain ⟨reply, hreply, hrecalls⟩ := fetch_recalls hfetch
    obtain ⟨rfl, rfl, rfl⟩ := hf _ _ _ _ _ hdata
    rw [List.append_nil]
    exact ⟨reply, hreply ▸ rfl, hrecalls⟩
  · obtain ⟨reply, hreply, hrecalls⟩ := fetch_recalls hfetch
    exact ⟨reply, hreply ▸ rfl, hrecalls⟩

/-! ## 4. Every call -/

/-- The value of a key among stored values. -/
def valueAt (ns name key purpose : String) (data : SecretData) : Except Failure String :=
  match Table.get? data key with
  | some stored => (decode stored).mapError .secret
  | none => .error (.secret (.noKey ns name key purpose))

theorem valueIn_eq (f : Vault) (name key purpose : String) :
    valueIn f ns name key purpose = dataIn f ns name purpose >>= valueAt ns name key purpose := by
  rw [valueIn]
  cases dataIn f ns name purpose <;> rfl

theorem value_recalls {name key purpose : String} {out : Except Failure String}
    (h : Follows (value ns name key purpose) cache xs out after) :
    ∃ reply, out = valueIn (always reply) ns name key purpose ∧
      Recalls ns cache [use ns name reply] xs after := by
  simp only [valueIn_eq]
  refine fetch_bind_recalls (fun data cache xs out after hdata => ?_) h
  rw [valueAt]
  split at hdata
  · rename_i hkey
    rw [hkey]
    exact follows_throw.mp hdata
  · rename_i stored hkey
    rw [hkey]
    exact follows_settle.mp hdata

theorem values_recalls {name purpose : String} {out : Except Failure (Table String)}
    (h : Follows (values ns name purpose) cache xs out after) :
    ∃ reply, out = valuesIn (always reply) ns name purpose ∧
      Recalls ns cache [use ns name reply] xs after :=
  fetch_bind_recalls
    (fun data _ _ _ _ hdata => follows_mapM
      (fun entry _ _ _ _ hentry => by
        obtain ⟨r, hr, rfl⟩ := follows_bind_pure.mp hentry
        obtain ⟨rfl, rfl, rfl⟩ := follows_settle.mp hr
        exact ⟨rfl, rfl, rfl⟩) hdata) h

/-- A reference that one reply decides. -/
theorem InTurn.one {r : Reference} {reply : Except Failure (Option SecretData)} :
    InTurn ns [r] [use ns r.secret reply] (r.read (always reply) ns) := by
  cases hread : r.read (always reply) ns with
  | error e => exact .fails hread
  | ok es =>
    have hone := InTurn.resolves hread .nil
    rwa [Except.map, List.append_nil] at hone

theorem InTurn.append {rs ts : List Reference} {ys ws : List Exchange}
    {es : List (String × String)} {out r : Except Failure (List (String × String))}
    (h : InTurn ns rs ys r) (hr : r = .ok es) (k : InTurn ns ts ws out) :
    InTurn ns (rs ++ ts) (ys ++ ws) (out.map (es ++ ·)) := by
  induction h generalizing es with
  | nil =>
    cases hr
    cases out <;> exact k
  | fails _ => cases hr
  | @resolves r rs reply fs ys rest hread _ ih =>
    cases rest with
    | error e => cases hr
    | ok gs =>
      cases hr
      have happend := InTurn.resolves hread (ih rfl)
      cases out with
      | error e => exact happend
      | ok hs => rwa [Except.map, Except.map, ← List.append_assoc] at happend

theorem InTurn.append_error {rs ts : List Reference} {ys : List Exchange} {e : Failure}
    {r : Except Failure (List (String × String))} (h : InTurn ns rs ys r) (hr : r = .error e) :
    InTurn ns (rs ++ ts) ys (.error e) := by
  induction h with
  | nil => cases hr
  | fails hread =>
    cases hr
    exact .fails hread
  | @resolves r rs reply es ys rest hread _ ih =>
    cases rest with
    | ok _ => cases hr
    | error e =>
      cases hr
      exact .resolves hread (ih rfl)

/-- A reference to one key is read as its value is. -/
theorem read_key {f : Vault} {purpose secret key : String} {r : Except Failure String}
    (h : valueIn f ns secret key purpose = r) :
    Reference.read f ns ⟨purpose, none, secret, some key⟩ =
      r.map fun v => [(SecretMap.keyOf secret key, v)] :=
  congrArg (Except.map _) h

/-- The references that are resolved together. -/
theorem entries_recalls {u : Use} {out : Except Failure (List (String × String))}
    (h : Follows (entries ns u) cache xs out after) :
    ∃ ys, InTurn ns u.references ys out ∧ Recalls ns cache ys xs after := by
  cases u with
  | connection ref =>
    obtain ⟨r, hr, rfl⟩ := follows_bind_pure.mp h
    obtain ⟨reply, rfl, hrecalls⟩ := value_recalls hr
    exact ⟨_, .one, hrecalls⟩
  | key ref default purpose =>
    obtain ⟨r, hr, rfl⟩ := follows_bind_pure.mp h
    obtain ⟨reply, rfl, hrecalls⟩ := value_recalls hr
    exact ⟨_, .one, hrecalls⟩
  | credentials ref purpose =>
    rcases follows_bind.mp h with ⟨ys, zs, u, mid, rfl, hname, hword⟩ | ⟨e, rfl, hname⟩
    · obtain ⟨reply, hu, hrecalls⟩ := value_recalls hname
      obtain ⟨r, hr, rfl⟩ := follows_bind_pure.mp hword
      obtain ⟨reply', hp, hrecalls'⟩ := value_recalls hr
      refine ⟨_, ?_, hrecalls.append hrecalls'⟩
      cases r with
      | error e => exact .resolves (read_key hu.symm) (.fails (read_key hp.symm))
      | ok p => exact .resolves (read_key hu.symm) (.resolves (read_key hp.symm) .nil)
    · obtain ⟨reply, hu, hrecalls⟩ := value_recalls hname
      exact ⟨_, .fails (read_key hu.symm), hrecalls⟩
  | whole ref purpose =>
    obtain ⟨r, hr, rfl⟩ := follows_bind_pure.mp h
    obtain ⟨reply, rfl, hrecalls⟩ := values_recalls hr
    exact ⟨_, .one, hrecalls⟩

theorem resolveUses_recalls {m : SecretMap} {us : List Use} {out : Except Failure SecretMap}
    (h : Follows (resolveUses ns m us) cache xs out after) :
    ∃ ys r, InTurn ns (us.flatMap Use.references) ys r ∧ out = r.map (Table.setAll m) ∧
      Recalls ns cache ys xs after := by
  induction us generalizing m cache xs with
  | nil =>
    obtain ⟨rfl, rfl, rfl⟩ := follows_pure.mp h
    exact ⟨[], .ok [], .nil, rfl, .nil _⟩
  | cons u us ih =>
    rw [List.flatMap_cons]
    rcases follows_bind.mp h with ⟨xs₁, xs₂, es, mid, rfl, hu, hrest⟩ | ⟨e, rfl, hu⟩
    · obtain ⟨ys, hturn, hrecalls⟩ := entries_recalls hu
      obtain ⟨ws, r, hturn', rfl, hrecalls'⟩ := ih hrest
      refine ⟨_, _, hturn.append rfl hturn', ?_, hrecalls.append hrecalls'⟩
      cases r with
      | error e => rfl
      | ok fs => exact congrArg Except.ok (Table.setAll_append ..).symm
    · obtain ⟨ys, hturn, hrecalls⟩ := entries_recalls hu
      exact ⟨ys, _, hturn.append_error rfl, rfl, hrecalls⟩

theorem firstUsable_recalls {m : Managed} {failures : List String}
    {candidates : List (String × String)} {out : Except Failure String}
    (h : Follows (firstUsable m failures candidates) cache xs out after) :
    ∃ ys, Tries m failures candidates ys out ∧ Recalls m.ns cache ys xs after := by
  induction candidates generalizing failures cache xs with
  | nil =>
    obtain ⟨rfl, rfl, rfl⟩ := follows_throw.mp h
    exact ⟨[], .exhausted failures, .nil _⟩
  | cons candidate rest ih =>
    obtain ⟨name, key⟩ := candidate
    obtain ⟨xs₁, xs₂, r, mid, rfl, hvalue, hrest⟩ := follows_attempt_bind.mp h
    obtain ⟨reply, rfl, hrecalls⟩ := value_recalls hvalue
    split at hrest
    · rename_i v hv
      split at hrest
      · rename_i hempty
        obtain ⟨ys, htries, hrecalls'⟩ := ih hrest
        exact ⟨_, .empty hv hempty htries, hrecalls.append hrecalls'⟩
      · rename_i hempty
        obtain ⟨rfl, rfl, rfl⟩ := follows_pure.mp hrest
        rw [List.append_nil]
        exact ⟨_, .usable hv (Bool.not_eq_true _ ▸ hempty), hrecalls⟩
    · rename_i e hv
      obtain ⟨ys, htries, hrecalls'⟩ := ih hrest
      exact ⟨_, .unresolved hv htries, hrecalls.append hrecalls'⟩
    · rename_i e hsecret hv
      obtain ⟨rfl, rfl, rfl⟩ := follows_throw.mp hrest
      rw [List.append_nil]
      exact ⟨_, .broken hv (fun ⟨s, hs⟩ => hsecret s hs), hrecalls⟩

/-- **Every call** comes to what the replies to its uses make of it, and asks only for those of
secrets that are not kept. -/
theorem Call.recalls {c : Call} (hwithin : c.Within ns) {out : Except Failure Answer}
    (h : Follows (c.pass ns) cache xs out after) :
    ∃ ys, c.Comes ns ys out ∧ Recalls ns cache ys xs after := by
  cases c with
  | value name key purpose =>
    obtain ⟨r, hr, rfl⟩ := follows_bind_pure.mp h
    obtain ⟨reply, rfl, hrecalls⟩ := value_recalls hr
    exact ⟨_, .value reply, hrecalls⟩
  | values name purpose =>
    obtain ⟨r, hr, rfl⟩ := follows_bind_pure.mp h
    obtain ⟨reply, rfl, hrecalls⟩ := values_recalls hr
    exact ⟨_, .values reply, hrecalls⟩
  | connection c =>
    obtain ⟨r, hr, rfl⟩ := follows_bind_pure.mp h
    obtain ⟨ys, es, hturn, rfl, hrecalls⟩ := resolveUses_recalls hr
    exact ⟨ys, by cases es <;> exact .connection hturn, hrecalls⟩
  | resource m =>
    obtain ⟨r, hr, rfl⟩ := follows_bind_pure.mp h
    obtain ⟨ys, es, hturn, rfl, hrecalls⟩ := resolveUses_recalls hr
    rw [flatMap_uses] at hturn
    cases hwithin
    exact ⟨ys, by cases es <;> exact .resource hturn, hrecalls⟩
  | registration m =>
    obtain ⟨r, hr, rfl⟩ := follows_bind_pure.mp h
    obtain ⟨ys, htries, hrecalls⟩ := firstUsable_recalls hr
    cases hwithin
    exact ⟨ys, .registration htries, hrecalls⟩

/-- All calls together. -/
theorem Runs.recalls {calls : List Call} (hwithin : ∀ c ∈ calls, c.Within ns)
    {outs : List (Except Failure Answer)} (h : Runs ns cache calls xs outs after) :
    ∃ ys, Uses ns calls ys outs ∧ Recalls ns cache ys xs after := by
  induction h with
  | nil cache => exact ⟨[], .nil, .nil cache⟩
  | cons hc _ ih =>
    rw [List.forall_mem_cons] at hwithin
    obtain ⟨ys, hcomes, hrecalls⟩ := Call.recalls hwithin.1 hc
    obtain ⟨zs, huses, hrecalls'⟩ := ih hwithin.2
    exact ⟨ys ++ zs, .cons hcomes huses, hrecalls.append hrecalls'⟩

end Steward.Secret
