import Mathlib.Data.List.Nodup
import Steward.Proofs.Run.Hosted

/-!
# What holds of an estate at any time

The passes of an estate have come to where their replies led them, and what they have read of the
service is what the service is like (`Apt`).  So a reconciliation pass over the service withdraws
its registration from the aggregator that the service refers to, and a coordination pass acts in the
light of the list that it was replied.  As there is one coordination pass at a time, a registration
is sent to where the application of the service is, and all applications of its name are found in
one place (`Tended`).
-/

namespace Steward.Run

open Pass Coordinate Reconcile Secret Holding

variable {x : Referral} {hs hs' : List Holding} {t : Task actors} {r before : Resource}
  {e e' : Estate} {p : Actor} {asked : List Exchange} {q : HttpRequest}

/-! ## 1. Parties -/

/-- The party was admitted and has come to where its replies led it, and the service was fit
whenever it was read. -/
structure Apt (x : Referral) (t : Task actors) : Prop where
  admitted : x.Admits t.party
  leads : Program.Leads t.party.program.program t.asked t.rest
  steady : ∀ y ∈ t.asked, Steady x.vault x.aggregator y
  given : ∀ r ∈ t.party.given, x.Owns r → x.Fit r
  read : ∀ r, WasRead t.asked r → x.Owns r → x.Fit r

/-- A kind of services has a block for them. -/
theorem registers_of_read {k : ManagerKind} {spec : Json.Members} {d : Declared}
    (h : Declared.read (.manager k) spec = .ok d) : d.registers = true := by
  rw [Declared.read] at h
  cases hspec : Spec.Manager.block.read spec with
  | valid s =>
    rw [hspec] at h
    cases h
    rfl
  | _ =>
    rw [hspec] at h
    cases h

/-- The service can be read, and is registered with its aggregator. -/
theorem registered_of_fit {ctx : Reconcile.Context} (hadmits : x.Admits (.reconciler ctx r))
    (hfit : x.Fit r) : ∃ m, Managed.ofResource r = .ok m ∧
      Registered ctx x.vault x.aggregator x.target x.client m ∧
      Reconcile.pullName ctx m = x.application := by
  obtain ⟨⟨hkind, hns, hname⟩, hsettings, -⟩ := hadmits
  obtain ⟨hspec, s, hs, -⟩ := hfit
  have hofName : Kind.ofName? r.kind = some (.manager x.kind) := by
    rw [hkind]
    exact Kind.ofName?_name (.manager x.kind)
  have hread : Managed.ofResource r = .ok ⟨r, x.declared, s⟩ := by
    rw [Managed.ofResource, hofName]
    dsimp only
    rw [hspec, x.reads, hs]
    rfl
  refine ⟨_, hread, ⟨registers_of_read x.reads, x.refers, x.isAggregator, ?_, x.isRead, ?_⟩, ?_⟩
  · rw [x.sameNamespace]
    exact hns.symm
  · rw [hsettings]
    exact x.reaches
  · rw [Reconcile.pullName, Managed.service_of_ofResource hkind hread, hsettings]
    change Registration.pullName _ r.name _ = _
    rw [hname]
    rfl

/-- A coordination pass acts in the light of what it was replied. -/
theorem Apt.considered {ctx : Coordinate.Context}
    {rest : Program signature (Except Failure Coordination)}
    (h : Apt x ⟨.coordinator ctx r, asked, rest⟩) :
    ∀ q ∈ rest.pending, Considered ctx x.base asked q := by
  obtain ⟨rfl, -, -⟩ := h.admitted
  exact (considered_coordinate x.isRead).of_leads h.leads

/-- A reconciliation pass is somewhere along its way. -/
theorem Apt.withdrawing {ctx : Reconcile.Context}
    {rest : Program signature (Except Failure Reconciliation)}
    (h : Apt x ⟨.reconciler ctx r, asked, rest⟩) :
    Withdrawing x.client x.application asked rest.pending := by
  obtain ⟨m, hm, hregistered, hname⟩ := registered_of_fit h.admitted
    (h.given r (List.mem_singleton_self r) h.admitted.1)
  rw [← hname]
  exact withdrawing_of_leads hm hregistered h.leads h.steady

/-- A reconciliation pass sends no registration. -/
theorem Apt.not_names (h : Apt x t) (hparty : t.party.isCoordinator = false)
    (hq : .http q ∈ t.rest.pending) : ¬ q.Names x.application := by
  obtain ⟨p, asked, rest⟩ := t
  cases p with
  | reconciler ctx r =>
    rintro ⟨payload, hpayload, -⟩
    rw [h.withdrawing.payload_eq_none q hq] at hpayload
    cases hpayload
  | coordinator ctx r => cases hparty
  | other p => exact h.admitted.elim

/-- A party that was replied to is apt as before. -/
theorem Apt.replied {request : Request}
    {next : request.Reply → Program signature (Except Failure p.Result)} {reply : request.Reply}
    (h : Apt x ⟨p, asked, .ask request next⟩)
    (hsteady : Steady x.vault x.aggregator ⟨request, reply⟩)
    (hbrought : ∀ r ∈ brought ⟨request, reply⟩, x.Owns r → x.Fit r) :
    Apt x ⟨p, asked ++ [⟨request, reply⟩], next reply⟩ where
  admitted := h.admitted
  leads := h.leads.snoc reply
  steady y hy := by
    rcases List.mem_append.mp hy with hy | hy
    · exact h.steady y hy
    · rwa [List.mem_singleton.mp hy]
  given := h.given
  read r hr := by
    obtain ⟨y, hy, hr⟩ := hr
    rcases List.mem_append.mp hy with hy | hy
    · exact h.read r ⟨y, hy, hr⟩
    · rw [List.mem_singleton.mp hy] at hr
      exact hbrought r hr

/-! ## 2. Estates -/

/-- What holds of an estate at any time. -/
structure Tended (x : Referral) (e : Estate) : Prop where
  apt : ∀ t ∈ e.tasks, Apt x t
  fit : ∀ r ∈ e.store.resources, x.Owns r → x.Fit r
  single : (e.tasks.map (·.party.isCoordinator)).Nodup
  /-- A registration is sent to where the application is. -/
  sending : ∀ t ∈ e.tasks, ∀ q, .http q ∈ t.rest.pending → q.Names x.application →
    Sent x.base x.application e.holdings q
  gathered : ∃ url, Under x.base x.application url e.holdings

section Replaced

variable {pre post : List (Task actors)} {t' : Task actors} {P : Task actors → Prop}

theorem mem_of_left (h : t' ∈ pre ++ post) : t' ∈ pre ++ t :: post := by
  rcases List.mem_append.mp h with h | h
  · exact List.mem_append_left _ h
  · exact List.mem_append_right _ (List.mem_cons_of_mem _ h)

/-- What holds of the others and of the one that takes its place among them. -/
theorem forall_replaced (h : ∀ q ∈ pre ++ post, P q) (ht : P t') :
    ∀ q ∈ pre ++ t' :: post, P q := by
  intro q hq
  rcases List.mem_append.mp hq with hq | hq
  · exact h q (List.mem_append_left _ hq)
  · rcases List.mem_cons.mp hq with rfl | hq
    · exact ht
    · exact h q (List.mem_append_right _ hq)

/-- No other party is of the kind of this one. -/
theorem isCoordinator_ne_of_single
    (h : ((pre ++ t :: post).map (·.party.isCoordinator)).Nodup) :
    ∀ q ∈ pre ++ post, q.party.isCoordinator ≠ t.party.isCoordinator := by
  rw [List.map_append, List.map_cons, List.nodup_middle, List.nodup_cons, ← List.map_append] at h
  exact fun q hq heq => h.1 (heq ▸ List.mem_map_of_mem hq)

end Replaced

/-! ### What is stored -/

theorem fit_of_sameContent {r' : Resource} (h : MemoryStore.SameContent r r')
    (hr : x.Owns r → x.Fit r) (howns : x.Owns r') : x.Fit r' := by
  obtain ⟨⟨hkind, hns, hname⟩, hspec, hstatus⟩ := h
  obtain ⟨h₁, h₂, h₃⟩ := howns
  obtain ⟨hspec', s, hs⟩ := hr ⟨hkind ▸ h₁, hns ▸ h₂, hname ▸ h₃⟩
  exact ⟨hspec.trans hspec', s, by rwa [hstatus]⟩

theorem fit_serves {s s' : MemoryStore} {y : Exchange} (h : Serves s y s')
    (hs : ∀ r ∈ s.resources, x.Owns r → x.Fit r) : ∀ r ∈ s'.resources, x.Owns r → x.Fit r := by
  cases h with
  | finalizerAdded r finalizer _ =>
    exact MemoryStore.forall_addFinalizer (fun _ _ => fit_of_sameContent) hs
  | finalizerRemoved r finalizer _ =>
    exact MemoryStore.forall_removeFinalizer (fun _ _ => fit_of_sameContent) hs
  | _ => exact hs

/-- What a reply brings is stored. -/
theorem fit_brought {s s' : MemoryStore} {y : Exchange} (h : Serves s y s')
    (hs : ∀ r ∈ s.resources, x.Owns r → x.Fit r) : ∀ r ∈ brought y, x.Owns r → x.Fit r := by
  intro r hr
  cases h with
  | found kind ns name => exact hs r (MemoryStore.mem_of_find? (Option.mem_toList.mp hr))
  | listed kind ns => exact hs r (MemoryStore.mem_resources_of_mem_list hr)
  | finalizerAdded q finalizer _ => cases hr
  | finalizerRemoved q finalizer _ => cases hr
  | lost hx => exact (List.ne_nil_of_mem hr (brought_of_refused hx)).elim
  | elsewhere hx => exact (List.ne_nil_of_mem hr (brought_of_elsewhere hx)).elim

/-- A party writes the status of the service as it can be read. -/
theorem Apt.dated_of_pending {status : Json.Members} (h : Apt x t)
    (hpending : .updateStatus r status ∈ t.rest.pending) (howns : x.Owns r) :
    ∃ s, Status.ofMembers status = .ok s ∧ s.Dated := by
  obtain ⟨p, asked, rest⟩ := t
  cases p with
  | reconciler ctx given =>
    obtain ⟨ys, out, hrest⟩ := Program.exists_follows rest
    dsimp only at hpending
    rw [hrest.pending_eq] at hpending
    obtain ⟨y, hy, hrequest⟩ := Option.map_eq_some_iff.mp (Option.mem_toList.mp hpending)
    obtain ⟨_, reply⟩ := y
    cases hrequest
    obtain ⟨later, rfl⟩ := List.head?_eq_some_iff.mp hy
    obtain ⟨after, hfollows⟩ := follows_program.mp (h.leads.follows hrest)
    obtain ⟨-, s, hs, hdated⟩ := h.given given (List.mem_singleton_self given) h.admitted.1
    obtain ⟨-, s', hamends, rfl⟩ := amends_pass h.admitted.2.2 hs hfollows
    exact ⟨s', Status.ofMembers_toMembers (hamends.dated hdated), hamends.dated hdated⟩
  | coordinator ctx given =>
    obtain ⟨hread, m, record, hm, hrecord, rfl⟩ :=
      (h.considered _ hpending).records r status rfl
    obtain ⟨-, s, hs, hdated⟩ := h.read r hread howns
    have hstatus := Managed.status_of_ofResource hm
    rw [hs, Except.ok.injEq] at hstatus
    have hdated' : { s with registration := some record }.Dated := by
      refine ⟨hdated.conditions, hdated.lastReconcile, hdated.health, fun record' h' => ?_⟩
      cases h'
      exact hrecord h.admitted.2.2
    rw [withRecord, ← hstatus]
    exact ⟨_, Status.ofMembers_toMembers hdated', hdated'⟩
  | other p => exact h.admitted.elim

theorem fit_put_written {s : MemoryStore} {status : Json.Members}
    (hs : ∀ r ∈ s.resources, x.Owns r → x.Fit r) (hcurrent : s.current r = .ok before)
    (hstatus : x.Owns r → ∃ s, Status.ofMembers status = .ok s ∧ s.Dated) :
    ∀ r ∈ (s.put (MemoryStore.written before status)).resources, x.Owns r → x.Fit r := by
  obtain ⟨hfind, -⟩ := MemoryStore.current_eq_ok hcurrent
  obtain ⟨hkind, hns, hname⟩ := MemoryStore.isAt_of_find? hfind
  refine MemoryStore.forall_put hs fun howns => ⟨?_, hstatus ?_⟩
  · exact (hs before (MemoryStore.mem_of_find? hfind) howns).1
  · obtain ⟨h₁, h₂, h₃⟩ := howns
    exact ⟨hkind ▸ h₁, hns ▸ h₂, hname ▸ h₃⟩

theorem Tended.fit_step (h : Tended x e) (hstep : x.Step e e') :
    ∀ r ∈ e'.store.resources, x.Owns r → x.Fit r := by
  cases hstep with
  | begin _ _ _ => exact h.fit
  | ask _ _ hserves _ => exact fit_serves hserves h.fit
  | call _ _ => exact h.fit
  | write htasks hcurrent _ =>
    refine fit_put_written h.fit hcurrent ?_
    refine (h.apt _ (htasks ▸ List.mem_append_cons_self)).dated_of_pending ?_
    exact List.mem_singleton_self _
  | leave _ => exact h.fit
  | create r _ hr => exact MemoryStore.forall_put h.fit hr
  | delete kind ns name now =>
    exact MemoryStore.forall_requestDeletion (fun _ _ => fit_of_sameContent) h.fit

/-! ### Who is at work -/

theorem Tended.apt_step (h : Tended x e) (hstep : x.Step e e') : ∀ t ∈ e'.tasks, Apt x t := by
  have hreplied {pre post : List (Task actors)} {p : Actor} {asked : List Exchange}
      {request : Request} {next : request.Reply → Program signature (Except Failure p.Result)}
      {reply : request.Reply} (htasks : e.tasks = pre ++ ⟨p, asked, .ask request next⟩ :: post)
      (hsteady : Steady x.vault x.aggregator ⟨request, reply⟩)
      (hbrought : ∀ r ∈ brought ⟨request, reply⟩, x.Owns r → x.Fit r) :
      ∀ t ∈ pre ++ ⟨p, asked ++ [⟨request, reply⟩], next reply⟩ :: post, Apt x t := by
    have hall := h.apt
    rw [htasks] at hall
    refine forall_replaced (fun t ht => hall t (mem_of_left ht))
      (Apt.replied (hall _ ?_) hsteady hbrought)
    exact List.mem_append_cons_self
  cases hstep with
  | begin p hadmits hgiven _ =>
    intro t ht
    rcases List.mem_cons.mp ht with rfl | ht
    · exact
        { admitted := hadmits
          leads := .refl _
          steady := fun _ hy => nomatch hy
          given := fun r hr => h.fit r (MemoryStore.mem_of_find? (hgiven r hr))
          read := fun _ ⟨_, hy, _⟩ => nomatch hy }
    · exact h.apt t ht
  | ask htasks _ hserves hsteady => exact hreplied htasks hsteady (fit_brought hserves h.fit)
  | call htasks _ =>
    exact hreplied htasks ⟨fun _ _ _ h => (nomatch h), fun _ h => (nomatch h)⟩ fun _ h => nomatch h
  | write htasks _ _ =>
    exact hreplied htasks ⟨fun _ _ _ h => (nomatch h), fun _ h => (nomatch h)⟩ fun _ h => nomatch h
  | leave htasks =>
    exact fun t ht => h.apt t (htasks ▸ mem_of_left ht)
  | create _ _ _ => exact h.apt
  | delete _ _ _ _ => exact h.apt

theorem Tended.single_step (h : Tended x e) (hstep : x.Step e e') :
    (e'.tasks.map (·.party.isCoordinator)).Nodup := by
  have hsingle := h.single
  cases hstep with
  | begin p _ _ hother =>
    rw [List.map_cons, List.nodup_cons]
    refine ⟨fun hmem => ?_, hsingle⟩
    obtain ⟨t, ht, heq⟩ := List.mem_map.mp hmem
    exact hother t ht heq
  | ask htasks _ _ _ =>
    rw [htasks, List.map_append, List.map_cons] at hsingle
    rwa [List.map_append, List.map_cons]
  | call htasks _ =>
    rw [htasks, List.map_append, List.map_cons] at hsingle
    rwa [List.map_append, List.map_cons]
  | write htasks _ _ =>
    rw [htasks, List.map_append, List.map_cons] at hsingle
    rwa [List.map_append, List.map_cons]
  | leave htasks =>
    rw [htasks, List.map_append, List.map_cons, List.nodup_middle, List.nodup_cons] at hsingle
    rw [List.map_append]
    exact hsingle.2
  | create _ _ _ => exact hsingle
  | delete _ _ _ _ => exact hsingle

/-! ### What is sent -/

/-- A registration is sent in the light of the list that was replied immediately before. -/
theorem Apt.prepared (h : Apt x t) (hq : .http q ∈ t.rest.pending)
    (hnames : q.Names x.application) :
    ∃ (c : AggregatorClient) (registration : Registration) (existing : Option Json)
      (earlier : List Exchange) (reply : Except Failure HttpResponse), c.baseUrl = x.base ∧
      t.asked = earlier ++ [⟨.http (c.request "GET" "" none), reply⟩] ∧
      c.foundIn registration.name reply = .ok existing ∧
      c.writing registration existing = .ok q := by
  obtain ⟨p, asked, rest⟩ := t
  cases p with
  | reconciler ctx r => exact absurd hnames (h.not_names rfl hq)
  | coordinator ctx r =>
    rcases (h.considered _ hq).calls q rfl with ⟨-, hpayload⟩ | hprepared
    · obtain ⟨payload, hsome, -⟩ := hnames
      cases hpayload.symm.trans hsome
    · exact hprepared
  | other p => exact h.admitted.elim

/-- No registration is sent after any other reply. -/
theorem Apt.not_names_replied {request : Request} {reply : request.Reply}
    {rest : Program signature (Except Failure p.Result)}
    (h : Apt x ⟨p, asked ++ [⟨request, reply⟩], rest⟩) (hspares : request.SparesAggregator) :
    ∀ q, .http q ∈ rest.pending → ¬ q.Names x.application := by
  intro q hq hnames
  obtain ⟨c, registration, existing, earlier, list, -, hasked, -⟩ := h.prepared hq hnames
  obtain ⟨-, hlast⟩ := List.append_inj' hasked rfl
  cases hlast
  exact hspares rfl

theorem Tended.sending_step (h : Tended x e) (hstep : x.Step e e') :
    ∀ t ∈ e'.tasks, ∀ q, .http q ∈ t.rest.pending → q.Names x.application →
      Sent x.base x.application e'.holdings q := by
  have hapt := h.apt_step hstep
  have hsending := h.sending
  cases hstep with
  | begin p _ _ _ =>
    intro t ht q hq hnames
    rcases List.mem_cons.mp ht with rfl | ht
    · -- no list was replied to it
      obtain ⟨c, registration, existing, earlier, list, -, hasked, -⟩ :=
        (hapt _ List.mem_cons_self).prepared hq hnames
      cases (List.append_eq_nil_iff.mp hasked.symm).2
    · exact hsending t ht q hq hnames
  | ask htasks hspares _ _ =>
    rw [htasks] at hsending
    exact forall_replaced (fun t ht => hsending t (mem_of_left ht)) fun q hq hnames => absurd hnames
      ((hapt _ List.mem_append_cons_self).not_names_replied hspares q hq)
  | write htasks _ _ =>
    rw [htasks] at hsending
    exact forall_replaced (fun t ht => hsending t (mem_of_left ht)) fun q hq hnames => absurd hnames
      ((hapt _ List.mem_append_cons_self).not_names_replied
        Addressee.noConfusion q hq)
  | call htasks hanswers =>
    have haptBefore := h.apt
    have hsingle := h.single
    rw [htasks] at haptBefore hsending hsingle
    have hcaller := haptBefore _ List.mem_append_cons_self
    refine forall_replaced (fun t ht q hq hnames => ?_) fun q hq hnames => ?_
    · -- as this party is about to send a registration, the other one sends none
      refine hanswers.sent_of_other (hcaller.not_names ?_ (List.mem_singleton_self _))
        (hsending t (mem_of_left ht) q hq hnames)
      rw [← Bool.not_eq_true]
      refine fun hcoordinates => isCoordinator_ne_of_single hsingle t ht ?_
      rw [hcoordinates, ← Bool.not_eq_false]
      exact fun hparty => (haptBefore t (mem_of_left ht)).not_names hparty hq hnames
    · -- the list was replied in this step
      obtain ⟨c, registration, existing, earlier, list, hbase, hasked, hfound, hwriting⟩ :=
        (hapt _ List.mem_append_cons_self).prepared hq hnames
      obtain ⟨-, hlast⟩ := List.append_inj' hasked rfl
      cases hlast
      have hsent := hanswers.sent hbase rfl hfound hwriting hnames h.gathered
      rwa [hanswers.eq_of_get rfl]
  | leave htasks =>
    exact fun t ht => hsending t (htasks ▸ mem_of_left ht)
  | create _ _ _ => exact hsending
  | delete _ _ _ _ => exact hsending

theorem Tended.gathered_step (h : Tended x e) (hstep : x.Step e e') :
    ∃ url, Under x.base x.application url e'.holdings := by
  have hgathered := h.gathered
  cases hstep with
  | @call _ _ _ _ q _ _ _ htasks hanswers =>
    by_cases hnames : q.Names x.application
    · have hcaller := htasks ▸ List.mem_append_cons_self
      exact hanswers.gathered (h.sending _ hcaller q (List.mem_singleton_self _) hnames)
    · obtain ⟨url, hunder⟩ := hgathered
      exact ⟨url, hanswers.under hnames hunder⟩
  | _ => exact hgathered

/-- **Estates are tended.** -/
theorem Tended.step (h : Tended x e) (hstep : x.Step e e') : Tended x e' :=
  ⟨h.apt_step hstep, h.fit_step hstep, h.single_step hstep, h.sending_step hstep,
    h.gathered_step hstep⟩

end Steward.Run
