import Steward.Proofs.Aggregator.Applications
import Steward.Proofs.Coordinate.Turns
import Steward.Proofs.Json.Reading
import Steward.Proofs.Reconcile.Withdrawal

/-!
# Neighbours at an aggregator

Services that refer to one aggregator stand beside each other in its list of applications.  The turn
of a service in a coordination pass (`_process`), or a pass over it when it is being deleted
(`_unregister_pull`), asks the aggregator for one call at most: to register or to remove the
application of one name.  Such a call lists all applications, looks for the first one of the name,
and sends what concerns it to where it is found.  So it only touches applications of the name, and
those that share a place with one (`TouchesOnly`); where ids occur once there are no others.  Names
do not have to occur once.

Different resources never have one name there (`pull_registration_name`, by
`Registration.pullName_inj`), so no resource touches the registration of another
(`neighbours_spared`).
-/

namespace Steward

open Pass AggregatorClient

namespace Holding

variable {base name : String} {hs hs' : List Holding} {x : Holding} {q : HttpRequest}
  {c : AggregatorClient} {calls : List Exchange}

/-! ## 1. What is touched -/

/-- The application is found where one of the name is found. -/
def Shares (base name : String) (hs : List Holding) (x : Holding) : Prop :=
  ∃ y ∈ hs, y.Named name ∧ x.url base = y.url base

instance (base name : String) (hs : List Holding) (x : Holding) :
    Decidable (x.Shares base name hs) :=
  inferInstanceAs (Decidable (∃ y ∈ hs, _))

/-- Whatever tells no applications of the name apart, nor those that share their places, sees no
difference. -/
def TouchesOnly (base name : String) (hs hs' : List Holding) : Prop :=
  ∀ p : Holding → Bool, (∀ x : Holding, x.Named name → p x = false) →
    (∀ x ∈ hs, x.Shares base name hs → p x = false) → hs'.filter p = hs.filter p

/-- What is not sent, and not found in the place that is asked for, stays as it is. -/
theorem Carries.filter_eq {p : Holding → Bool} {answer : Option Json}
    (h : Carries base hs q answer hs')
    (hsent : ∀ members id, q.payload = some (.object members) → p ⟨id, members⟩ = false)
    (hplace : q.method ≠ "POST" → ∀ x ∈ hs, x.url base = q.url → p x = false) :
    hs'.filter p = hs.filter p := by
  cases h with
  | list _ => rfl
  | add n _ hpayload _ =>
    rw [List.filter_append, List.filter_singleton, hsent _ _ hpayload, cond_false, List.append_nil]
  | @replace members _ hmethod hpayload _ =>
    have hput : q.method ≠ "POST" := by
      rw [hmethod]
      decide
    rw [List.filter_map]
    have hsame : ∀ x ∈ hs, (p ∘ fun x => if x.url base = q.url then ⟨x.id, members⟩ else x) x =
        p x := by
      intro x hx
      rw [Function.comp_apply]
      split
      · rename_i hurl
        rw [hsent _ _ hpayload, hplace hput x hx hurl]
      · rfl
    rw [List.filter_congr hsame]
    refine (List.map_congr_left fun x hx => ?_).trans (List.map_id' _)
    obtain ⟨hx, hkept⟩ := List.mem_filter.mp hx
    refine if_neg fun hurl => ?_
    rw [hplace hput x hx hurl] at hkept
    cases hkept
  | remove hmethod =>
    have hdelete : q.method ≠ "POST" := by
      rw [hmethod]
      decide
    rw [List.filter_filter]
    refine List.filter_congr fun x hx => ?_
    by_cases hurl : x.url base = q.url
    · rw [hplace hdelete x hx hurl, Bool.false_and]
    · rw [decide_eq_true hurl, Bool.and_true]

theorem Serves.filter_eq {p : Holding → Bool} {reply : Except Failure HttpResponse}
    (h : Serves base hs ⟨.http q, reply⟩ hs')
    (hsent : ∀ members id, q.payload = some (.object members) → p ⟨id, members⟩ = false)
    (hplace : q.method ≠ "POST" → ∀ x ∈ hs, x.url base = q.url → p x = false) :
    hs'.filter p = hs.filter p := by
  cases h with
  | answered hcarries _ => exact hcarries.filter_eq hsent hplace
  | refused _ => rfl
  | lost hcarries _ => exact hcarries.filter_eq hsent hplace

/-! ## 2. Calls -/

/-- A registration touches only applications of its name. -/
theorem touchesOnly_of_registering {r : Registration} {out : Except Failure Int}
    (hbase : c.baseUrl = base) (h : Registering c r calls out)
    (hsteps : Steps (Serves base) hs calls hs') : TouchesOnly base r.name hs hs' := by
  intro p hnamed hshares
  cases h with
  | unread _ => rw [(steps_singleton_iff.mp hsteps).find.1]
  | unsent _ _ => rw [(steps_singleton_iff.mp hsteps).find.1]
  | sent hfound hwriting =>
    obtain ⟨mid, hlist, hwrite⟩ := steps_cons_iff.mp hsteps
    obtain ⟨rfl, hfinds⟩ := hlist.find
    have hcarried {id : Option Json} {payload : Json} (hpayload : r.payload id = .ok payload) :
        ∀ members id, some payload = some (.object members) → p ⟨id, members⟩ = false := by
      rintro members id ⟨⟩
      exact hnamed _ (Registration.get?_name_of_payload hpayload)
    rename_i existing _
    cases existing with
    | none =>
      obtain ⟨payload, hpayload, rfl⟩ := writing_none_iff.mp hwriting
      exact (steps_singleton_iff.mp hwrite).filter_eq (hcarried hpayload) fun hpost =>
        absurd rfl hpost
    | some application =>
      obtain ⟨x, hx, hx_named, hid⟩ := hfinds _ _ hfound
      obtain ⟨payload, hpayload, rfl⟩ := (writing_some_iff hid).mp hwriting
      refine (steps_singleton_iff.mp hwrite).filter_eq (hcarried hpayload) fun _ y hy hurl => ?_
      exact hshares y hy ⟨x, hx, hx_named, by rw [hurl, request, hbase, url]⟩

/-- A removal touches only applications of its name. -/
theorem touchesOnly_of_unregistering {out : Except Failure Bool} (hbase : c.baseUrl = base)
    (h : Unregistering c name calls out) (hsteps : Steps (Serves base) hs calls hs') :
    TouchesOnly base name hs hs' := by
  intro p _ hshares
  cases h with
  | unread _ => rw [(steps_singleton_iff.mp hsteps).find.1]
  | absent _ => rw [(steps_singleton_iff.mp hsteps).find.1]
  | unsent _ _ => rw [(steps_singleton_iff.mp hsteps).find.1]
  | sent hfound hid =>
    obtain ⟨mid, hlist, hremove⟩ := steps_cons_iff.mp hsteps
    obtain ⟨rfl, hfinds⟩ := hlist.find
    obtain ⟨x, hx, hx_named, hx_id⟩ := hfinds _ _ hfound
    rw [hid, Except.ok.injEq] at hx_id
    subst hx_id
    refine (steps_singleton_iff.mp hremove).filter_eq (fun _ _ h => nomatch h)
      fun _ y hy hurl => ?_
    exact hshares y hy ⟨x, hx, hx_named, by rw [hurl, request, hbase, url]⟩

end Holding

open Holding

/-! ## 3. What passes ask of an aggregator -/

namespace Pass

/-- What is asked of aggregators. -/
def toAggregator (xs : List Exchange) : List Exchange :=
  xs.filter fun x => x.request.addressee = .aggregator

theorem toAggregator_append (xs ys : List Exchange) :
    toAggregator (xs ++ ys) = toAggregator xs ++ toAggregator ys :=
  List.filter_append ..

theorem toAggregator_of_spares {xs : List Exchange} (h : ∀ x ∈ xs, x.request.SparesAggregator) :
    toAggregator xs = [] :=
  List.filter_eq_nil_iff.mpr fun x hx hto => h x hx (of_decide_eq_true hto)

theorem toAggregator_of_asks {xs : List Exchange}
    (h : ∀ x ∈ xs, x.request.addressee = .aggregator) : toAggregator xs = xs :=
  List.filter_eq_self.mpr fun x hx => decide_eq_true (h x hx)

theorem sparesAggregator_of_readsSecret {xs : List Exchange}
    (h : ∀ x ∈ xs, x.request.ReadsSecret) : ∀ x ∈ xs, x.request.SparesAggregator :=
  fun x hx => (Reconcile.sparesBoth_of_readsSecret (h x hx)).1

theorem sparesAggregator_of_isRecord {xs : List Exchange} (h : ∀ x ∈ xs, isRecord x = true) :
    ∀ x ∈ xs, x.request.SparesAggregator := by
  intro x hx
  obtain ⟨e, he⟩ := isRecord_iff.mp (h x hx)
  rw [he]
  exact Addressee.noConfusion

end Pass

/-- The aggregator at this URL is the one that is asked: it is asked to list what it holds, and
holds `hs'` after all that it is asked. -/
structure Served (base : String) (hs : List Holding) (xs : List Exchange) (hs' : List Holding) :
    Prop where
  lists : ∀ q reply, ⟨.http q, reply⟩ ∈ xs → q.method = "GET" → q.url = base ++ endpoint
  steps : Steps (Serves base) hs (toAggregator xs) hs'

/-- A client that lists the applications of an aggregator is a client of it. -/
theorem Served.baseUrl_eq {base : String} {hs hs' : List Holding} {xs : List Exchange}
    {c : AggregatorClient} (h : Served base hs xs hs')
    (hlists : ∃ reply, ⟨.http (c.request "GET" "" none), reply⟩ ∈ toAggregator xs) :
    c.baseUrl = base := by
  obtain ⟨reply, hmem⟩ := hlists
  have hurl := congrArg String.toList (h.lists _ _ (List.mem_filter.mp hmem).1 rfl)
  simp only [request, String.append_empty, String.toList_append] at hurl
  exact String.toList_injective (List.append_cancel_right hurl)

/-- An aggregator that is not asked holds what it held. -/
theorem Served.touchesOnly_of_nil {base name : String} {hs hs' : List Holding}
    {xs : List Exchange} (h : Served base hs xs hs') (hnone : toAggregator xs = []) :
    TouchesOnly base name hs hs' := by
  have hsteps := h.steps
  rw [hnone] at hsteps
  rw [steps_nil_iff.mp hsteps]
  exact fun _ _ _ => rfl

namespace AggregatorClient

variable {c : AggregatorClient} {calls : List Exchange}

/-- What is asked first to register a service is the list of all. -/
theorem Registering.lists {r : Registration} {out : Except Failure Int}
    (h : Registering c r calls out) :
    ∃ reply, ⟨.http (c.request "GET" "" none), reply⟩ ∈ calls := by
  cases h <;> exact ⟨_, List.mem_cons_self⟩

theorem Unregistering.lists {name : String} {out : Except Failure Bool}
    (h : Unregistering c name calls out) :
    ∃ reply, ⟨.http (c.request "GET" "" none), reply⟩ ∈ calls := by
  cases h <;> exact ⟨_, List.mem_cons_self⟩

end AggregatorClient

namespace Coordinate

variable {ctx : Context} {a : Managed} {client : AggregatorClient} {before after : Cache}

/-- All that is asked of an aggregator in a turn is to register the service. -/
theorem registering_of_goes {t : Turn} (h : Goes ctx a client t after) :
    toAggregator t.exchanges = [] ∨ ∃ m key out, Managed.ofResource t.resource = .ok m ∧
      Registering client (registrationOf ctx a m key) (toAggregator t.exchanges) out := by
  cases h with
  | skipped _ _ => exact .inl rfl
  | @decided t m after _ hm hdecide hsaves =>
    obtain ⟨resource, before, asked, decision, written⟩ := t
    dsimp only at hm hdecide hsaves ⊢
    have hwritten : toAggregator written = [] := by
      refine toAggregator_of_spares fun x hx => ?_
      rw [Request.SparesAggregator, hsaves.addressee x hx]
      exact Addressee.noConfusion
    rw [Turn.exchanges, toAggregator_append, hwritten, List.append_nil]
    have hcalls {key : String} {reads calls events : List Exchange} {mid mid' : Cache}
        {made : Except Failure String} {out : Except Failure Int}
        (hreads : Follows (Secret.registrationKey m) before reads made mid)
        (hcalls : Follows (client.register (registrationOf ctx a m key)) mid calls out mid')
        (hevents : ∀ x ∈ events, isRecord x = true) :
        toAggregator (reads ++ (calls ++ events)) = [] ∨ ∃ m key out,
          Managed.ofResource resource = .ok m ∧ Registering client (registrationOf ctx a m key)
            (toAggregator (reads ++ (calls ++ events))) out := by
      rw [toAggregator_append, toAggregator_append, toAggregator_of_spares
        (sparesAggregator_of_readsSecret (Secret.asks_registrationKey m _ _ _ _ hreads)),
        toAggregator_of_asks (asks_register client _ _ _ _ _ hcalls),
        toAggregator_of_spares (sparesAggregator_of_isRecord hevents), List.nil_append,
        List.append_nil]
      exact .inr ⟨m, key, out, hm, (AggregatorClient.follows_register hcalls).1⟩
    cases href : m.declared.aggregatorRef with
    | none =>
      rw [(follows_decideOrFail_pure (decide_of_unreferenced href) hdecide).1]
      exact .inl rfl
    | some ref =>
      by_cases hname : ref.name = a.name
      · obtain ⟨record, error, -, hattempt⟩ := attempt_of_follows href hname hdecide
        cases hattempt with
        | conflict _ => exact .inl rfl
        | disabled _ _ => exact .inl rfl
        | noKey _ _ hreads =>
          exact .inl (toAggregator_of_spares
            (sparesAggregator_of_readsSecret (Secret.asks_registrationKey m _ _ _ _ hreads)))
        | failed _ _ hreads hregister =>
          exact hcalls hreads hregister (List.forall_mem_singleton.mpr rfl)
        | registered _ _ hreads hregister hevents => exact hcalls hreads hregister hevents
      · rw [(follows_decideOrFail_pure (decide_of_elsewhere href hname) hdecide).1]
        exact .inl rfl

theorem registering_of_service {result : Coordination} {r : Resource} {xs : List Exchange}
    {out : Except Failure Coordination}
    (h : Follows (service ctx a client result r) before xs out after) :
    toAggregator xs = [] ∨ ∃ m key out, Managed.ofResource r = .ok m ∧
      Registering client (registrationOf ctx a m key) (toAggregator xs) out := by
  rcases follows_service h with ⟨⟨hlive, hunbounded⟩, -⟩ | ⟨t, rfl, -, rfl, hgoes, -⟩
  · rw [service, hlive, if_neg Bool.false_ne_true, hunbounded] at h
    rw [(follows_throw.mp h).1]
    exact .inl rfl
  · exact registering_of_goes hgoes

end Coordinate

namespace Reconcile

variable {ctx : Context} {m : Managed} {r : Resource} {cache after : Cache} {xs : List Exchange}

theorem toAggregator_of_unregistering {c : AggregatorClient} {name : String}
    {calls : List Exchange} {removed : Except Failure Bool}
    (h : Unregistering c name calls removed) : toAggregator calls = calls := by
  cases h <;> rfl

theorem unregistering_of_unregisterFrom {aggregator : String} {out : Except Failure Unit}
    (h : Follows (unregisterFrom ctx m aggregator) cache xs out after) :
    toAggregator xs = [] ∨
      ∃ c removed, Unregistering c (pullName ctx m) (toAggregator xs) removed := by
  rcases follows_bind.mp h with ⟨ys, zs, found, mid, rfl, hget, hrest⟩ | ⟨e, -, hget⟩
  · obtain ⟨reply, rfl, -, -⟩ := follows_ask_settle.mp hget
    have hlooked : toAggregator [⟨.getResource Kind.aggregatorName m.ns aggregator, reply⟩] = [] :=
      rfl
    rw [toAggregator_append, hlooked, List.nil_append]
    cases found with
    | none =>
      obtain ⟨rfl, -, -⟩ := follows_pure.mp hrest
      exact .inl rfl
    | some resource =>
      have hread := follows_settle_bind.mp hrest
      cases hresource : Managed.ofResource resource with
      | error e =>
        rw [hresource] at hread
        obtain ⟨rfl, -, -⟩ := hread
        exact .inl rfl
      | ok target =>
        rw [hresource] at hread
        rcases follows_bind.mp hread with ⟨reads, rest, c, mid', rfl, hreads, hcall⟩ |
          ⟨e, -, hreads⟩
        · obtain ⟨calls, events, removed, rfl, hcalls, hevents⟩ := follows_announced hcall
          rw [toAggregator_append, toAggregator_append, toAggregator_of_spares
            (sparesAggregator_of_readsSecret (asks_forManaged _ _ _ _ _ _ hreads)),
            toAggregator_of_spares hevents, List.nil_append, List.append_nil,
            toAggregator_of_unregistering hcalls]
          exact .inr ⟨c, removed, hcalls⟩
        · exact .inl (toAggregator_of_spares
            (sparesAggregator_of_readsSecret (asks_forManaged _ _ _ _ _ _ hreads)))
  · obtain ⟨reply, rfl, -, -⟩ := follows_ask_settle.mp hget
    exact .inl rfl

theorem unregistering_of_reconcileDeleted {out : Except Failure Reconciliation}
    (h : Follows (reconcileDeleted ctx m) cache xs out after) :
    toAggregator xs = [] ∨
      ∃ c removed, Unregistering c (pullName ctx m) (toAggregator xs) removed := by
  cases hfinalizer : m.resource.hasFinalizer m.finalizer with
  | false =>
    rw [reconcileDeleted_of_no_finalizer hfinalizer] at h
    rw [(follows_pure.mp h).1]
    exact .inl rfl
  | true =>
    rw [reconcileDeleted_of_finalizer hfinalizer] at h
    rcases follows_bind.mp h with ⟨ys, zs, _, mid, rfl, hunregister, hrest⟩ | ⟨e, -, hfailed⟩
    · have hclearing : Asks Request.SparesAggregator (clearing m) :=
        asks_clearing (fun _ h => (sparesBoth_of_readsSecret h).1) (fun _ h => h.sparesAggregator)
          Addressee.noConfusion fun _ => Addressee.noConfusion
      rw [toAggregator_append, toAggregator_of_spares (hclearing _ _ _ _ hrest), List.append_nil]
      rw [unregister] at hunregister
      split at hunregister
      · split at hunregister
        · obtain ⟨us, vs, result, mid', rfl, hfrom, hend⟩ := follows_attempt_bind.mp hunregister
          rw [(follows_pure.mp hend).1, List.append_nil]
          exact unregistering_of_unregisterFrom hfrom
        · rw [(follows_pure.mp hunregister).1]
          exact .inl rfl
      · rw [(follows_pure.mp hunregister).1]
        exact .inl rfl
    · cases follows_unregister hfailed

theorem spares_reportInvalid (error : ManagedError) :
    Asks Request.SparesAggregator (reportInvalid ctx r error) := by
  have hrelease : Asks Request.SparesAggregator (do
      if r.hasFinalizer (finalizerFor r.kind) then
        let _ ← Pass.removeFinalizer r (finalizerFor r.kind)
      return { success := true, message := "Finalizer removed" } : Pass Reconciliation) :=
    asks_ite ((asks_ask_settle Addressee.noConfusion).bind fun _ => asks_pure _) (asks_pure _)
  rw [reportInvalid]
  refine asks_ite hrelease ?_
  refine (asks_ask_settle Addressee.noConfusion).attempt.bind fun reply => ?_
  split
  · exact asks_pure _
  · exact asks_pure _
  · exact (asks_throw _).bind fun _ => asks_pure _

/-- **All that a pass asks of an aggregator** is to remove the registration of its resource. -/
theorem unregistering_of_reconcile {out : Except Failure Reconciliation}
    (h : Follows (reconcile ctx r) cache xs out after) :
    toAggregator xs = [] ∨ ∃ m c removed, Managed.ofResource r = .ok m ∧
      Unregistering c (pullName ctx m) (toAggregator xs) removed := by
  rw [reconcile] at h
  split at h
  · rw [(follows_throw.mp h).1]
    exact .inl rfl
  · exact .inl (toAggregator_of_spares (spares_reportInvalid _ _ _ _ _ h))
  · rename_i m hm
    split at h
    · rw [(follows_pure.mp h).1]
      exact .inl rfl
    split at h
    · rcases unregistering_of_reconcileDeleted h with hnone | ⟨c, removed, hcalls⟩
      · exact .inl hnone
      · exact .inr ⟨m, c, removed, hm, hcalls⟩
    split at h
    · have hadopt : Asks Request.SparesAggregator (adopt m) :=
        (asks_ask_settle Addressee.noConfusion).bind fun _ =>
          (asks_ask Addressee.noConfusion).bind fun _ => asks_pure _
      exact .inl (toAggregator_of_spares (hadopt _ _ _ _ h))
    · exact .inl (toAggregator_of_spares fun x hx => (idle_reconcileActive h x hx).1)

end Reconcile

/-! ## 4. Neighbours -/

/-- Applications of the name are left as they are: those that do not share their place with an
application named `ours`, and so all of them where a place holds one application. -/
structure Holding.Spared (base ours name : String) (hs hs' : List Holding) : Prop where
  unshared : hs'.filter (fun x => x.Named name ∧ ¬ x.Shares base ours hs) =
    hs.filter fun x => x.Named name ∧ ¬ x.Shares base ours hs
  all : (∀ x ∈ hs, ∀ y ∈ hs, x.url base = y.url base → x = y) →
    hs'.filter (fun x => x.Named name) = hs.filter fun x => x.Named name

theorem Holding.TouchesOnly.spared {base ours name : String} {hs hs' : List Holding}
    (h : TouchesOnly base ours hs hs') (hne : ours ≠ name) : Spared base ours name hs hs' := by
  have hother {x : Holding} (hours : x.Named ours) : ¬ x.Named name := by
    intro hname
    rw [named_iff] at hours hname
    exact hne (Option.some.inj (hours.symm.trans hname))
  refine ⟨h _ (fun x hx => ?_) fun x _ hx => ?_, fun hplaces => h _ (fun x hx => ?_) fun x hx => ?_⟩
  · exact decide_eq_false fun hboth => hother hx hboth.1
  · exact decide_eq_false fun hboth => hboth.2 hx
  · exact decide_eq_false (hother hx)
  · rintro ⟨y, hy, hy_named, hurl⟩
    rw [hplaces x hx y hy hurl]
    exact decide_eq_false (hother hy_named)

namespace Resource

/-- The name under which a resource of the kind is registered. -/
def pullName (pre : String) (r : Resource) (k : ManagerKind) : String :=
  Registration.pullName pre r.name k.service

/-- Whatever an aggregator holds, and whatever it is asked for the resource, which is registered as
`ours`, spares the applications of the name. -/
structure Spares (pre : String) (r : Resource) (ours name : String) : Prop where
  /-- A turn in a coordination pass, in which the resource may be registered. -/
  turn : ∀ (ctx : Coordinate.Context) (a : Managed) (client : AggregatorClient)
    (result : Coordination) (before after : Cache) (xs : List Exchange)
    (out : Except Failure Coordination) (base : String) (hs hs' : List Holding),
    ctx.settings.registrationPrefix = pre →
    Follows (Coordinate.service ctx a client result r) before xs out after →
    Served base hs xs hs' → Spared base ours name hs hs'
  /-- A pass over the resource, in which it may be unregistered. -/
  pass : ∀ (ctx : Reconcile.Context) (xs : List Exchange) (out : Except Failure Reconciliation)
    (base : String) (hs hs' : List Holding), ctx.settings.registrationPrefix = pre →
    Program.Follows (Reconcile.reconcile ctx r).program xs out →
    Served base hs xs hs' → Spared base ours name hs hs'

theorem pullName_ne {pre : String} {r q : Resource} {k l : ManagerKind}
    (hr : r.kind = k.resourceKind) (hq : q.kind = l.resourceKind)
    (hother : r.kind ≠ q.kind ∨ r.name ≠ q.name) : r.pullName pre k ≠ q.pullName pre l := by
  intro hsame
  obtain ⟨hname, rfl⟩ := Registration.pullName_inj hsame
  exact hother.elim (fun hkind => hkind (hr.trans hq.symm)) fun hne => hne hname

/-- A resource only touches applications of its own name. -/
theorem spares_of_ne {pre : String} {r : Resource} {k : ManagerKind} {name : String}
    (hr : r.kind = k.resourceKind) (hne : r.pullName pre k ≠ name) :
    r.Spares pre (r.pullName pre k) name where
  turn ctx a client result before after xs out base hs hs' hpre h hserved := by
    refine TouchesOnly.spared ?_ hne
    rcases Coordinate.registering_of_service h with hnone | ⟨m, key, made, hm, hcalls⟩
    · exact hserved.touchesOnly_of_nil hnone
    · have hname : (Coordinate.registrationOf ctx a m key).name = r.pullName pre k := by
        rw [pullName, ← hpre, ← Managed.service_of_ofResource hr hm,
          ← Managed.resource_of_ofResource hm]
        rfl
      rw [← hname]
      exact touchesOnly_of_registering (hserved.baseUrl_eq hcalls.lists) hcalls hserved.steps
  pass ctx xs out base hs hs' hpre h hserved := by
    refine TouchesOnly.spared ?_ hne
    obtain ⟨after, hfollows⟩ := follows_program.mp h
    rcases Reconcile.unregistering_of_reconcile hfollows with hnone | ⟨m, c, removed, hm, hcalls⟩
    · exact hserved.touchesOnly_of_nil hnone
    · have hname : Reconcile.pullName ctx m = r.pullName pre k := by
        rw [pullName, ← hpre, ← Managed.service_of_ofResource hr hm,
          ← Managed.resource_of_ofResource hm]
        rfl
      rw [← hname]
      exact touchesOnly_of_unregistering (hserved.baseUrl_eq hcalls.lists) hcalls hserved.steps

end Resource

/-- **Neighbours are spared.**  Two resources that differ in their kinds or names are registered
under different names, whatever the names are; and whatever applications an aggregator holds, no
turn of the coordinator and no pass over the one resource touches an application of the other. -/
theorem neighbours_spared (pre : String) {r q : Resource} {k l : ManagerKind}
    (hr : r.kind = k.resourceKind) (hq : q.kind = l.resourceKind)
    (hother : r.kind ≠ q.kind ∨ r.name ≠ q.name) :
    r.pullName pre k ≠ q.pullName pre l ∧
      r.Spares pre (r.pullName pre k) (q.pullName pre l) ∧
      q.Spares pre (q.pullName pre l) (r.pullName pre k) :=
  have hne := Resource.pullName_ne hr hq hother
  ⟨hne, Resource.spares_of_ne hr hne, Resource.spares_of_ne hq hne.symm⟩

namespace Stem

/-! ### A name that goes on -/

def tv : Resource where
  kind := "SonarrConfig"
  name := "tv"
  deletion := some ⟨2024, 1, 1, 0, 0, 0, 0, some 0⟩
  finalizers := ["sonarrconfig.arr-operator.io/finalizer"]
  spec := [("connection", .object [("url", .string "http://tv")]),
    ("indexers", .object [("prowlarrRef", .object [("name", .string "main")])])]

def films : Resource where
  kind := "RadarrConfig"
  name := "tv-sonarr"

def main : Resource where
  kind := "ProwlarrConfig"
  name := "main"
  spec := [("connection", .object [("url", .string "http://main"),
    ("apiKeySecretRef", .object [("name", .string "key")])])]

/-- The series as they are read. -/
def service : Managed where
  resource := tv
  declared := .manager .sonarr
    { connection := ⟨"http://tv", none, false, none⟩
      indexers := some ⟨some ⟨"main", true, [], []⟩, []⟩
      tuning := none, downloadClients := [], importLists := [], authentication := none
      mediaManagement := none, rootFolders := [], qualityPreset := none, pathMappings := [] }
  status := {}

/-- The aggregator as it is read. -/
def aggregator : Managed where
  resource := main
  declared := .aggregator
    { connection := ⟨"http://main", some ⟨"key", none⟩, false, none⟩
      indexers := [], proxies := [], applications := [], downloadClients := [], tuning := none }
  status := {}

def ctx : Reconcile.Context :=
  ⟨{}, fun _ _ _ => .ok { app := "sonarr" }, ⟨2024, 1, 1, 0, 0, 0, 0, some 0⟩⟩

def client : AggregatorClient := .new "http://main" "key" 30 false

/-- The application of the series. -/
def ours : Holding := ⟨.int 1, [("name", .string "arr-operator-pull-tv-sonarr")]⟩

/-- Applications of the films, which are registered twice. -/
def theirs : List Holding :=
  [⟨.int 2, [("name", .string "arr-operator-pull-tv-sonarr-radarr")]⟩,
    ⟨.int 3, [("name", .string "arr-operator-pull-tv-sonarr-radarr")]⟩]

def listing : Except Failure HttpResponse :=
  .ok ⟨200, (Json.array ((ours :: theirs).map document)).text⟩

/-- What is asked of the aggregator. -/
def calls : List Exchange :=
  [⟨.http (client.request "GET" "" none), listing⟩,
    ⟨.http (client.request "DELETE" "/1" none), .ok ⟨200, ""⟩⟩]

/-- What is asked to unregister the series. -/
def unregistering : List Exchange :=
  ⟨.getResource "ProwlarrConfig" "default" "main", .ok (some main)⟩ ::
    ⟨.getSecret "default" "key", .ok (some [("apiKey", "a2V5")])⟩ ::
    (calls ++ [⟨.record (.normal tv "Unregistered"
      "Unregistered arr-operator-pull-tv-sonarr from main"), ()⟩])

/-- What is asked then. -/
def clearing : List Exchange :=
  [⟨.findAdapter "sonarr", .ok none⟩,
    ⟨.removeFinalizer tv "sonarrconfig.arr-operator.io/finalizer", .ok none⟩,
    ⟨.record (.normal tv "Deleted" "Removed sonarrconfig.arr-operator.io/finalizer"), ()⟩]

theorem answerTo_listing : answerTo (client.request "GET" "" none) listing =
    .ok (some (.array ((ours :: theirs).map document))) := by
  have hreadable : Json.Readable Json.Room.reading (.array ((ours :: theirs).map document)) :=
    ⟨⟨rfl, rfl⟩, by decide, by decide⟩
  exact answerTo_of_parse (Json.parse_text hreadable) (by decide) (by decide)

theorem follows_calls (cache : Cache) :
    Follows (client.unregister "arr-operator-pull-tv-sonarr") cache calls (.ok true) cache :=
  follows_unregister_sent (foundIn_of_answer _ answerTo_listing) (idOf_document ours)
    (.ok ⟨200, ""⟩)

theorem follows_reconcile : Program.Follows (Reconcile.reconcile ctx tv).program
    (unregistering ++ clearing) (.ok { success := true, message := "Finalizer removed" }) := by
  obtain ⟨cache, hclient⟩ : ∃ cache, Follows (forManaged aggregator 30) []
      [⟨.getSecret "default" "key", .ok (some [("apiKey", "a2V5")])⟩] (.ok client) cache :=
    ⟨_, .ask (.done _)⟩
  have hfrom : Follows (Reconcile.unregisterFrom ctx service "main") [] unregistering (.ok ())
      cache := by
    refine follows_bind.mpr (.inl ⟨[_], _, some main, _, rfl, .ask (.done _), ?_⟩)
    refine follows_bind.mpr (.inl ⟨[], _, aggregator, _, rfl, .done _, ?_⟩)
    refine follows_bind.mpr (.inl ⟨[_], _, client, _, rfl, hclient, ?_⟩)
    exact follows_bind.mpr (.inl ⟨calls, [_], true, _, rfl, follows_calls cache, .ask (.done _)⟩)
  have hunregister : Follows (Reconcile.unregister ctx service) [] unregistering (.ok ()) cache :=
    follows_attempt_bind.mpr ⟨_, [], _, _, (List.append_nil _).symm, hfrom, .done _⟩
  refine follows_program.mpr ⟨cache, ?_⟩
  exact follows_bind.mpr (.inl
    ⟨unregistering, clearing, (), _, rfl, hunregister, .ask (.ask (.ask (.done _)))⟩)

theorem toAggregator_asked : toAggregator (unregistering ++ clearing) = calls := rfl

/-- The first application is removed. -/
theorem served : Served "http://main" (ours :: theirs) (unregistering ++ clearing) theirs where
  lists q reply hmem hget := by
    have hcall : ⟨.http q, reply⟩ ∈ calls :=
      toAggregator_asked ▸ List.mem_filter.mpr ⟨hmem, rfl⟩
    rcases List.mem_cons.mp hcall with hlist | hcall
    · cases hlist
      rfl
    · cases List.mem_singleton.mp hcall
      exact absurd hget (by decide)
  steps := by
    rw [toAggregator_asked]
    exact .cons (.answered (.list rfl) answerTo_listing)
      (.cons (.answered (.remove rfl) rfl) (.nil _))

end Stem

/-- The series are unregistered, and the films stay, whose name goes on where that of the series
ends. -/
theorem neighbours_spared_stem :
    Stem.tv.kind = ManagerKind.sonarr.resourceKind ∧
      Stem.films.kind = ManagerKind.radarr.resourceKind ∧
      (Stem.tv.kind ≠ Stem.films.kind ∨ Stem.tv.name ≠ Stem.films.name) ∧
      Program.Follows (Reconcile.reconcile Stem.ctx Stem.tv).program
        (Stem.unregistering ++ Stem.clearing)
        (.ok { success := true, message := "Finalizer removed" }) ∧
      Served "http://main" (Stem.ours :: Stem.theirs) (Stem.unregistering ++ Stem.clearing)
        Stem.theirs ∧
      Spared "http://main" "arr-operator-pull-tv-sonarr" "arr-operator-pull-tv-sonarr-radarr"
        (Stem.ours :: Stem.theirs) Stem.theirs := by
  have hother : Stem.tv.kind ≠ Stem.films.kind ∨ Stem.tv.name ≠ Stem.films.name := by decide
  have hspares := (@neighbours_spared "arr-operator" Stem.tv Stem.films .sonarr .radarr rfl rfl
    hother).2.1
  exact ⟨rfl, rfl, hother, Stem.follows_reconcile, Stem.served,
    hspares.pass Stem.ctx _ _ _ _ _ rfl Stem.follows_reconcile Stem.served⟩

end Steward
