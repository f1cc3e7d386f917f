import Steward.Proofs.Reconcile.Guards
import Steward.Proofs.Secret.Fixed

/-!
# How a registration is withdrawn

A pass over a resource that is being deleted looks up the aggregator and a key for it, and then asks
the aggregator to remove the registration; after that it asks no aggregator any more, and removes
the finalizer (`Withdraws`).  No other pass asks an aggregator, or removes a finalizer.

While the aggregator and the secrets stay as they are, the look-up does not fail, so the finalizer
is only removed after the aggregator was asked.
-/

namespace Steward.Reconcile

open Pass Secret AggregatorClient

/-! ## 1. Unregistering -/

/-- The exchange reads a secret from the vault, and the aggregator as it is. -/
def Steady (f : Vault) (a : Resource) (x : Exchange) : Prop :=
  From f x ∧ ∀ reply, x = ⟨.getResource a.kind a.ns a.name, reply⟩ → reply = .ok (some a)

/-- The application of the name is removed, once a client was found.  It is this client if what was
read before is steady. -/
structure Withdrawal (f : Vault) (a : Resource) (client : AggregatorClient) (name : String)
    (before calls later : List Exchange) : Prop where
  reads : ∀ x ∈ before, x.request.SparesAggregator ∧ x.request.SparesFinalizers
  asks : calls = [] ∨ ∃ c removed, Unregistering c name calls removed
  steady : (∀ x ∈ before, Steady f a x) → ∃ removed, Unregistering client name calls removed
  spares : ∀ x ∈ later, x.request.SparesAggregator

/-- The pass withdraws a registration. -/
def Withdraws (f : Vault) (a : Resource) (client : AggregatorClient) (name : String)
    (xs : List Exchange) : Prop :=
  ∃ before calls later, xs = before ++ calls ++ later ∧
    Withdrawal f a client name before calls later

variable {ctx : Context} {f : Vault} {a r : Resource} {m target : Managed}
  {client : AggregatorClient} {name : String} {cache after : Cache} {xs zs : List Exchange}

/-- More that does not ask the aggregator may follow. -/
theorem Withdraws.append (h : Withdraws f a client name xs)
    (hzs : ∀ x ∈ zs, x.request.SparesAggregator) : Withdraws f a client name (xs ++ zs) := by
  obtain ⟨before, calls, later, rfl, hw⟩ := h
  refine ⟨before, calls, later ++ zs, List.append_assoc .., hw.reads, hw.asks, hw.steady, ?_⟩
  exact fun x hx => (List.mem_append.mp hx).elim (hw.spares x) (hzs x)

/-- A pass that does not get as far as to ask the aggregator has read something that is not
steady. -/
theorem withdraws_of_unsteady
    (hxs : ∀ x ∈ xs, x.request.SparesAggregator ∧ x.request.SparesFinalizers)
    (hunsteady : ¬ ∀ x ∈ xs, Steady f a x) : Withdraws f a client name xs :=
  ⟨xs, [], [], by rw [List.append_nil, List.append_nil], hxs, .inl rfl,
    fun hsteady => absurd hsteady hunsteady, fun _ hx => nomatch hx⟩

theorem sparesBoth_of_readsSecret {q : Request} (h : q.ReadsSecret) :
    q.SparesAggregator ∧ q.SparesFinalizers := by
  refine ⟨?_, h.sparesStore.sparesFinalizers⟩
  rw [Request.SparesAggregator, h.addressee]
  exact Addressee.noConfusion

/-- What is fixed for a service that is unregistered from the aggregator `a`. -/
structure Registered (ctx : Context) (f : Vault) (a : Resource) (target : Managed)
    (client : AggregatorClient) (m : Managed) : Prop where
  registers : m.declared.registers = true
  ref : ∃ ref, m.declared.aggregatorRef = some ref ∧ ref.name = a.name
  kind : a.kind = Kind.aggregatorName
  ns : a.ns = m.ns
  reads : Managed.ofResource a = .ok target
  reaches : clientIn f target ctx.settings.httpTimeout = .ok client

/-- The name that a service is registered under. -/
def pullName (ctx : Context) (m : Managed) : String :=
  Registration.pullName ctx.settings.registrationPrefix m.name m.service

/-- Once an application was removed, only that is recorded. -/
theorem follows_announced {c : AggregatorClient} {event : Event} {out : Except Failure Unit}
    (h : Follows (do if ← c.unregister name then Pass.record event) cache xs out after) :
    ∃ calls events removed, xs = calls ++ events ∧ Unregistering c name calls removed ∧
      ∀ x ∈ events, x.request.SparesAggregator := by
  rcases follows_bind.mp h with ⟨calls, events, removed, mid, rfl, hcalls, hend⟩ | ⟨e, rfl, hcalls⟩
  · refine ⟨calls, events, _, rfl, (AggregatorClient.follows_unregister hcalls).1, ?_⟩
    have hasks : Asks Request.SparesAggregator
        (if removed = true then Pass.record event else pure ()) :=
      asks_ite (asks_ask Addressee.noConfusion) (asks_pure _)
    exact hasks _ _ _ _ hend
  · exact ⟨xs, [], _, (List.append_nil xs).symm, (AggregatorClient.follows_unregister hcalls).1,
      fun x hx => nomatch hx⟩

/-- Removing the registration asks the aggregator, unless what is read before is not steady. -/
theorem withdraws_unregisterFrom (hm : Registered ctx f a target client m)
    {out : Except Failure Unit} (hcache : Agrees f m.ns cache)
    (h : Follows (unregisterFrom ctx m a.name) cache xs out after) :
    Withdraws f a client (pullName ctx m) xs := by
  have hlookup (reply : Except Failure (Option Resource)) : ∀ x ∈
      [(⟨.getResource Kind.aggregatorName m.ns a.name, reply⟩ : Exchange)],
      x.request.SparesAggregator ∧ x.request.SparesFinalizers :=
    List.forall_mem_singleton.mpr ⟨Addressee.noConfusion, fun _ _ => Request.noConfusion,
      fun ⟨_, _, h⟩ => Request.noConfusion h⟩
  -- the aggregator is read as it is, or what is read is not steady
  have hsame {reply : Except Failure (Option Resource)} {ys : List Exchange}
      (hsteady : ∀ x ∈ ⟨.getResource Kind.aggregatorName m.ns a.name, reply⟩ :: ys, Steady f a x) :
      reply = .ok (some a) := by
    refine (hsteady _ List.mem_cons_self).2 reply ?_
    rw [hm.kind, hm.ns]
  rcases follows_bind.mp h with ⟨ys, zs, found, mid, rfl, hget, hrest⟩ | ⟨e, rfl, hget⟩
  · obtain ⟨reply, rfl, hreply, rfl⟩ := follows_ask_settle.mp hget
    cases found with
    | none =>
      obtain ⟨rfl, -, -⟩ := follows_pure.mp hrest
      exact withdraws_of_unsteady (hlookup _) fun hsteady => by
        rw [← hreply] at hsteady
        cases hsame hsteady
    | some resource =>
      have hread := follows_settle_bind.mp hrest
      cases hresource : Managed.ofResource resource with
      | error e =>
        rw [hresource] at hread
        obtain ⟨rfl, -, -⟩ := hread
        exact withdraws_of_unsteady (hlookup _) fun hsteady => by
          rw [← hreply] at hsteady
          cases hsame hsteady
          cases hresource.symm.trans hm.reads
      | ok target' =>
        rw [hresource] at hread
        have hlead (reads : List Exchange) (hreads : ∀ x ∈ reads, x.request.ReadsSecret) :
            ∀ x ∈ ⟨.getResource Kind.aggregatorName m.ns a.name, reply⟩ :: reads,
              x.request.SparesAggregator ∧ x.request.SparesFinalizers :=
          List.forall_mem_cons.mpr ⟨hlookup reply _ List.mem_cons_self,
            fun x hx => sparesBoth_of_readsSecret (hreads x hx)⟩
        -- what is read is steady only if the client is the one of the aggregator
        have hclient {reads : List Exchange} {built : Except Failure AggregatorClient}
            {mid' : Cache} (hreads : Follows (forManaged target' ctx.settings.httpTimeout) mid reads
              built mid')
            (hsteady : ∀ x ∈ ⟨.getResource Kind.aggregatorName m.ns a.name, reply⟩ :: reads,
              Steady f a x) : built = .ok client := by
          have hok := hsame hsteady
          rw [← hreply, Except.ok.injEq, Option.some.injEq] at hok
          subst hok
          cases hresource.symm.trans hm.reads
          rw [← hm.reaches]
          refine (yields_forManaged f target _ _ _ _ _ hreads
            (fun x hx => (hsteady x (List.mem_cons_of_mem _ hx)).1) ?_).1
          rwa [Managed.ns, Managed.resource_of_ofResource hm.reads, hm.ns]
        rcases follows_bind.mp hread with ⟨reads, rest, built, mid', rfl, hreads, hrest⟩ |
          ⟨e, rfl, hreads⟩
        · obtain ⟨calls, events, removed, rfl, hcalls, hevents⟩ := follows_announced hrest
          refine ⟨_ :: reads, calls, events, by rw [List.append_assoc]; rfl,
            hlead reads (asks_forManaged _ _ _ _ _ _ hreads), .inr ⟨built, removed, hcalls⟩,
            fun hsteady => ?_, hevents⟩
          cases hclient hreads hsteady
          exact ⟨removed, hcalls⟩
        · exact withdraws_of_unsteady (hlead _ (asks_forManaged _ _ _ _ _ _ hreads))
            fun hsteady => by cases hclient hreads hsteady
  · obtain ⟨reply, rfl, hreply, -⟩ := follows_ask_settle.mp hget
    exact withdraws_of_unsteady (hlookup _) fun hsteady => by
      rw [← hreply] at hsteady
      cases hsame hsteady

theorem withdraws_unregister (hm : Registered ctx f a target client m) {out : Except Failure Unit}
    (hcache : Agrees f m.ns cache) (h : Follows (unregister ctx m) cache xs out after) :
    Withdraws f a client (pullName ctx m) xs := by
  obtain ⟨ref, href, hname⟩ := hm.ref
  rw [unregister, if_pos hm.registers, href] at h
  dsimp only at h
  rw [hname] at h
  obtain ⟨ys, zs, result, mid, rfl, hfrom, hend⟩ := follows_attempt_bind.mp h
  obtain ⟨rfl, -, -⟩ := follows_pure.mp hend
  rw [List.append_nil]
  exact withdraws_unregisterFrom hm hcache hfrom

/-! ## 2. Whole passes -/

/-- Nothing asks an aggregator, and no finalizer is removed. -/
def Idle (xs : List Exchange) : Prop :=
  ∀ x ∈ xs, x.request.SparesAggregator ∧ ¬ x.request.Removes

theorem idle_nil : Idle [] := fun _ hx => nomatch hx

theorem withdraws_reconcileDeleted (hm : Registered ctx f a target client m)
    {out : Except Failure Reconciliation}
    (h : Follows (reconcileDeleted ctx m) [] xs out after) :
    Idle xs ∨ Withdraws f a client (pullName ctx m) xs := by
  cases hfinalizer : m.resource.hasFinalizer m.finalizer with
  | false =>
    rw [reconcileDeleted_of_no_finalizer hfinalizer] at h
    obtain ⟨rfl, -, -⟩ := follows_pure.mp h
    exact .inl idle_nil
  | true =>
    rw [reconcileDeleted_of_finalizer hfinalizer] at h
    rcases follows_bind.mp h with ⟨ys, zs, _, mid, rfl, hunregister, hrest⟩ | ⟨e, -, hfailed⟩
    · have hclearing : Asks Request.SparesAggregator (clearing m) :=
        asks_clearing (fun _ h => (sparesBoth_of_readsSecret h).1) (fun _ h => h.sparesAggregator)
          Addressee.noConfusion fun _ => Addressee.noConfusion
      exact .inr ((withdraws_unregister hm (agrees_nil _ _) hunregister).append
        (hclearing _ _ _ _ hrest))
    · cases follows_unregister hfailed

theorem idle_reconcileActive {out : Except Failure Reconciliation}
    (h : Follows (reconcileActive ctx m) cache xs out after) : Idle xs := by
  intro x hx
  refine ⟨?_, (sparesFinalizers_reconcileActive h _ (List.mem_map_of_mem hx)).2⟩
  refine forall_of_quiet (P := Request.SparesAggregator) (fun q hq => ?_) (fun y hy => ?_) x hx
  · obtain ⟨e, rfl⟩ := hq
    exact Addressee.noConfusion
  rcases request_of_reconcileActive h hy with hread | hservice | ⟨document, hy⟩
  · exact (sparesBoth_of_readsSecret hread).1
  · exact hservice.sparesAggregator
  · rw [hy]
    exact Addressee.noConfusion

/-- **Passes and the aggregator.**  A pass over a service that is registered asks no aggregator and
leaves the finalizer, or it withdraws the registration. -/
theorem withdraws_reconcile (hread : Managed.ofResource r = .ok m)
    (hm : Registered ctx f a target client m) {out : Except Failure Reconciliation}
    (h : Follows (reconcile ctx r) [] xs out after) :
    Idle xs ∨ Withdraws f a client (pullName ctx m) xs := by
  rw [reconcile, hread] at h
  dsimp only at h
  split at h
  · obtain ⟨rfl, -, -⟩ := follows_pure.mp h
    exact .inl idle_nil
  split at h
  · exact withdraws_reconcileDeleted hm h
  split at h
  · refine .inl fun x hx => ?_
    rcases follows_adopt h with ⟨e, rfl, -⟩ | ⟨stored, rfl, -⟩
    · rw [List.mem_singleton.mp hx]
      exact ⟨Addressee.noConfusion, by rintro ⟨_, _, h⟩; cases h⟩
    · rcases List.mem_cons.mp hx with rfl | hx
      · exact ⟨Addressee.noConfusion, by rintro ⟨_, _, h⟩; cases h⟩
      · rw [List.mem_singleton.mp hx]
        exact ⟨Addressee.noConfusion, by rintro ⟨_, _, h⟩; cases h⟩
  · exact .inl (idle_reconcileActive h)

/-! ## 3. Along the way -/

/-- How far a pass has come that has asked `asked` and is about to ask `pending`. -/
inductive Withdrawing (client : AggregatorClient) (name : String) :
    List Exchange → List Request → Prop where
  /-- The aggregator was not asked yet, and the finalizer is not removed. -/
  | early {asked : List Exchange} {pending : List Request} :
      (∀ x ∈ asked, x.request.SparesAggregator) → (∀ q ∈ pending, ¬ q.Removes) →
      (∀ q, .http q ∈ pending → q = client.request "GET" "" none) →
      Withdrawing client name asked pending
  /-- The application was found, and is about to be removed. -/
  | found {earlier : List Exchange} {reply : Except Failure HttpResponse} {application id : Json} :
      (∀ x ∈ earlier, x.request.SparesAggregator) →
      client.foundIn name reply = .ok (some application) → idOf application = .ok id →
      Withdrawing client name (earlier ++ [⟨.http (client.request "GET" "" none), reply⟩])
        [.http (client.request "DELETE" ("/" ++ id.plain) none)]
  /-- The aggregator was asked, and is asked no more. -/
  | late {before calls later : List Exchange} {pending : List Request}
      {removed : Except Failure Bool} : (∀ x ∈ before, x.request.SparesAggregator) →
      Unregistering client name calls removed → (∀ x ∈ later, x.request.SparesAggregator) →
      (∀ q ∈ pending, q.SparesAggregator) →
      Withdrawing client name (before ++ calls ++ later) pending

theorem withdrawing_of_idle {asked ys : List Exchange} (h : Idle (asked ++ ys)) :
    Withdrawing client name asked (ys.head?.map (·.request)).toList := by
  have hnext : ∀ q ∈ (ys.head?.map (·.request)).toList, q.SparesAggregator ∧ ¬ q.Removes := by
    intro q hq
    obtain ⟨y, hy, rfl⟩ := Option.map_eq_some_iff.mp (Option.mem_toList.mp hq)
    exact h y (List.mem_append_right _ (List.mem_of_mem_head? hy))
  exact .early (fun x hx => (h x (List.mem_append_left _ hx)).1) (fun q hq => (hnext q hq).2)
    fun q hq => absurd rfl (hnext _ hq).1

/-- Whatever is left of `later` spares the aggregator. -/
theorem sparesAggregator_of_head? {ys later : List Exchange} (hsuffix : ys <:+ later)
    (h : ∀ x ∈ later, x.request.SparesAggregator) :
    ∀ q ∈ (ys.head?.map (·.request)).toList, q.SparesAggregator := by
  intro q hq
  obtain ⟨y, hy, rfl⟩ := Option.map_eq_some_iff.mp (Option.mem_toList.mp hq)
  exact h y (hsuffix.subset (List.mem_of_mem_head? hy))

/-- What is asked first to remove an application is the list of all. -/
theorem head?_of_unregistering {calls : List Exchange} {removed : Except Failure Bool}
    (h : Unregistering client name calls removed) :
    ∃ reply rest, calls = ⟨.http (client.request "GET" "" none), reply⟩ :: rest := by
  cases h <;> exact ⟨_, _, rfl⟩

/-- Between two requests of a removal the application was found. -/
theorem unregistering_split {calls earlier rest : List Exchange} {x y : Exchange}
    {removed : Except Failure Bool} (h : Unregistering client name calls removed)
    (hsplit : calls = x :: earlier ++ y :: rest) :
    ∃ reply reply' application id, x = ⟨.http (client.request "GET" "" none), reply⟩ ∧
      earlier = [] ∧ y = ⟨.http (client.request "DELETE" ("/" ++ id.plain) none), reply'⟩ ∧
      rest = [] ∧ client.foundIn name reply = .ok (some application) ∧
      idOf application = .ok id := by
  have hshort {d z : Exchange} {zs : List Exchange} (hcons : [d] = z :: zs) : z = d ∧ zs = [] := by
    cases hcons
    exact ⟨rfl, rfl⟩
  cases h with
  | sent hfound hid =>
    obtain ⟨rfl, hlast⟩ := List.cons.inj hsplit
    cases earlier with
    | nil =>
      obtain ⟨rfl, rfl⟩ := hshort hlast
      exact ⟨_, _, _, _, rfl, rfl, rfl, rfl, hfound, hid⟩
    | cons z zs => cases (List.append_eq_nil_iff.mp (hshort hlast).2).2
  | unread _ => cases (List.append_eq_nil_iff.mp (hshort hsplit).2).2
  | absent _ => cases (List.append_eq_nil_iff.mp (hshort hsplit).2).2
  | unsent _ _ => cases (List.append_eq_nil_iff.mp (hshort hsplit).2).2

theorem withdrawing_of_withdraws {asked ys : List Exchange}
    (h : Withdraws f a client name (asked ++ ys)) (hsteady : ∀ x ∈ asked, Steady f a x) :
    Withdrawing client name asked (ys.head?.map (·.request)).toList := by
  obtain ⟨before, calls, later, hsplit, hw⟩ := h
  rw [List.append_assoc] at hsplit
  -- about to ask the aggregator for the first time
  have hfirst (hasked : asked = before) (hys : ys = calls ++ later) :
      Withdrawing client name asked (ys.head?.map (·.request)).toList := by
    subst hasked
    obtain ⟨removed, hcalls⟩ := hw.steady hsteady
    obtain ⟨reply, rest, rfl⟩ := head?_of_unregistering hcalls
    subst hys
    refine .early (fun x hx => (hw.reads x hx).1) (fun q hq => ?_) fun q hq => ?_
    · rw [List.mem_singleton.mp hq]
      exact fun ⟨_, _, h⟩ => Request.noConfusion h
    · exact Request.http.inj (List.mem_singleton.mp hq)
  rcases List.append_eq_append_iff.mp hsplit with ⟨rest, hbefore, hys⟩ | ⟨after, rfl, hcalls⟩
  · cases rest with
    | nil =>
      rw [List.append_nil] at hbefore
      exact hfirst hbefore.symm hys
    | cons y rest =>
      subst hys
      have hnext := hw.reads y (hbefore ▸ List.mem_append_right _ List.mem_cons_self)
      refine .early (fun x hx => (hw.reads x (hbefore ▸ List.mem_append_left _ hx)).1)
        (fun q hq => ?_) fun q hq => ?_
      · rw [List.mem_singleton.mp hq]
        exact hnext.2.2
      · exact absurd (congrArg Request.addressee (List.mem_singleton.mp hq)).symm hnext.1
  · obtain ⟨removed, hunregistering⟩ :=
      hw.steady fun x hx => hsteady x (List.mem_append_left _ hx)
    have hreads : ∀ x ∈ before, x.request.SparesAggregator := fun x hx => (hw.reads x hx).1
    rcases List.append_eq_append_iff.mp hcalls with ⟨rest, rfl, hlater⟩ | ⟨rest, hrest, rfl⟩
    · rw [← List.append_assoc]
      exact .late hreads hunregistering
        (fun x hx => hw.spares x (hlater ▸ List.mem_append_left _ hx))
        (sparesAggregator_of_head? ⟨rest, hlater.symm⟩ hw.spares)
    · cases rest with
      | nil =>
        rw [List.append_nil] at hrest
        subst hrest
        have hlate := @Withdrawing.late client name before calls [] _ removed hreads hunregistering
          (fun _ hx => nomatch hx) (sparesAggregator_of_head? (List.suffix_refl later) hw.spares)
        rwa [List.append_nil] at hlate
      | cons y rest =>
        cases after with
        | nil => exact hfirst (List.append_nil before) (hrest ▸ rfl)
        | cons x after =>
          obtain ⟨reply, reply', application, id, rfl, rfl, rfl, rfl, hfound, hid⟩ :=
            unregistering_split hunregistering hrest
          exact .found hreads hfound hid

/-- **A pass along the way.**  As long as what it reads is steady, a pass over a service that is
registered has not asked the aggregator yet and leaves the finalizer, or is about to remove the
application that it found, or is done with the aggregator. -/
theorem withdrawing_of_leads (hread : Managed.ofResource r = .ok m)
    (hm : Registered ctx f a target client m) {asked : List Exchange}
    {rest : Program signature (Except Failure Reconciliation)}
    (h : Program.Leads (reconcile ctx r).program asked rest) (hsteady : ∀ x ∈ asked, Steady f a x) :
    Withdrawing client (pullName ctx m) asked rest.pending := by
  obtain ⟨ys, out, hrest⟩ := Program.exists_follows rest
  obtain ⟨after, hfollows⟩ := follows_program.mp (h.follows hrest)
  rw [hrest.pending_eq]
  rcases withdraws_reconcile hread hm hfollows with hidle | hwithdraws
  · exact withdrawing_of_idle hidle
  · exact withdrawing_of_withdraws hwithdraws hsteady

/-! ## 4. What comes next -/

/-- The finalizer is left alone as long as the aggregator was not asked. -/
theorem Withdrawing.not_removes {asked : List Exchange} {pending : List Request}
    (h : Withdrawing client name asked pending) (hasked : ∀ x ∈ asked, x.request.SparesAggregator) :
    ∀ q ∈ pending, ¬ q.Removes := by
  cases h with
  | early _ hkeeps _ => exact hkeeps
  | found _ _ _ => exact absurd rfl (hasked _ (List.mem_append_right _ (List.mem_singleton_self _)))
  | late _ hcalls _ _ =>
    obtain ⟨reply, rest, rfl⟩ := head?_of_unregistering hcalls
    exact absurd rfl
      (hasked _ (List.mem_append_left _ (List.mem_append_right _ List.mem_cons_self)))

/-- The aggregator is asked for the list of all applications first, and then to remove one. -/
theorem Withdrawing.call {asked : List Exchange} {pending : List Request} {q : HttpRequest}
    (h : Withdrawing client name asked pending) (hq : .http q ∈ pending) :
    (q = client.request "GET" "" none ∧ ∀ x ∈ asked, x.request.SparesAggregator) ∨
      (q.method = "DELETE" ∧ ¬ ∀ x ∈ asked, x.request.SparesAggregator) := by
  cases h with
  | early hasked _ hget => exact .inl ⟨hget q hq, hasked⟩
  | found _ _ _ =>
    cases List.mem_singleton.mp hq
    refine .inr ⟨rfl, fun hasked => ?_⟩
    exact hasked _ (List.mem_append_right _ (List.mem_singleton_self _)) rfl
  | late _ _ _ hspares => exact absurd rfl (hspares _ hq)

/-- Once the list was replied, the pass is about to remove what it found there, or it is done with
the aggregator. -/
theorem Withdrawing.of_listed {asked : List Exchange} {pending : List Request}
    {reply : Except Failure HttpResponse}
    (h : Withdrawing client name (asked ++ [⟨.http (client.request "GET" "" none), reply⟩]) pending)
    (hasked : ∀ x ∈ asked, x.request.SparesAggregator) :
    (∃ application id, client.foundIn name reply = .ok (some application) ∧
      idOf application = .ok id ∧
      pending = [.http (client.request "DELETE" ("/" ++ id.plain) none)]) ∨
    ∃ removed,
      Unregistering client name [⟨.http (client.request "GET" "" none), reply⟩] removed := by
  generalize hall : asked ++ [(⟨.http (client.request "GET" "" none), reply⟩ : Exchange)] = all at h
  cases h with
  | early hspares _ _ =>
    subst hall
    exact absurd rfl (hspares _ (List.mem_append_right _ (List.mem_singleton_self _)))
  | found _ hfound hid =>
    obtain ⟨-, hlast⟩ := List.append_inj' hall rfl
    cases hlast
    exact .inl ⟨_, _, hfound, hid, rfl⟩
  | @late before calls later _ removed _ hcalls _ _ =>
    obtain ⟨reply', rest, rfl⟩ := head?_of_unregistering hcalls
    rw [List.append_assoc, List.cons_append] at hall
    -- nothing comes after the list, which was not asked for before
    rcases List.eq_nil_or_concat (rest ++ later) with hnone | ⟨more, last, hmore⟩
    · obtain ⟨rfl, rfl⟩ := List.append_eq_nil_iff.mp hnone
      obtain ⟨-, hlast⟩ := List.append_inj' hall rfl
      cases hlast
      exact .inr ⟨removed, hcalls⟩
    · rw [hmore, List.concat_eq_append, ← List.cons_append, ← List.append_assoc] at hall
      obtain ⟨rfl, -⟩ := List.append_inj' hall rfl
      exact absurd rfl (hasked _ (List.mem_append_right _ List.mem_cons_self))

/-- Nothing is sent along with what a pass asks the aggregator. -/
theorem Withdrawing.payload_eq_none {asked : List Exchange} {pending : List Request}
    (h : Withdrawing client name asked pending) :
    ∀ q, .http q ∈ pending → q.payload = none := by
  intro q hq
  cases h with
  | early _ _ hget => rw [hget q hq, AggregatorClient.request]
  | found _ _ _ =>
    cases List.mem_singleton.mp hq
    rfl
  | late _ _ _ hspares => exact absurd rfl (hspares _ hq)

end Steward.Reconcile
