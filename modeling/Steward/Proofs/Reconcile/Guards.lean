import Steward.Proofs.Reconcile.Deletion

/-!
# What guards a pass

The order in which a pass looks at its resource decides what it may ask: a suspended resource is
left alone, one that is being deleted is released, one without the finalizer is only given it, and
adapters and aggregators are asked for all others alone.  `guards_reconcile` says so of the requests
of a whole pass, and what a pass has asked at any moment begins those (`Guards.of_isPrefix`).
-/

namespace Steward

open Pass

namespace Pass.Request

/-- The request removes a finalizer. -/
def Removes (r : Request) : Prop := ∃ q finalizer, r = .removeFinalizer q finalizer

/-- The request leaves finalizers alone. -/
def SparesFinalizers (r : Request) : Prop :=
  (∀ q finalizer, r ≠ .addFinalizer q finalizer) ∧ ¬ r.Removes

variable {r : Request}

theorem SparesStore.sparesFinalizers (h : r.SparesStore) : r.SparesFinalizers := by
  constructor
  · rintro q finalizer rfl
    cases h
  · rintro ⟨q, finalizer, rfl⟩
    cases h

theorem sparesFinalizers_updateStatus (resource : Resource) (status : Json.Members) :
    (updateStatus resource status).SparesFinalizers :=
  ⟨fun _ _ => Request.noConfusion, fun ⟨_, _, h⟩ => Request.noConfusion h⟩

theorem Records.sparesStore (h : r.Records) : r.SparesStore := by
  obtain ⟨e, rfl⟩ := h
  rfl

end Pass.Request

namespace Reconcile

variable {ctx : Context} {m : Managed} {r : Resource} {cache after : Cache} {xs : List Exchange}
  {asked begun : List Request} {out : Except Failure Reconciliation}

/-! ## 1. Guards -/

/-- What a pass asks that gives a resource its finalizer. -/
def adoption (m : Managed) : List Request :=
  [.addFinalizer m.resource m.finalizer,
    .record (.normal m.resource "FinalizerAdded" ("Added " ++ m.finalizer))]

theorem mem_adoption {q : Request} : q ∈ adoption m ↔ q = .addFinalizer m.resource m.finalizer ∨
    q = .record (.normal m.resource "FinalizerAdded" ("Added " ++ m.finalizer)) := by
  rw [adoption, List.mem_cons, List.mem_singleton]

/-- What holds of the requests of a pass over `r`, which reads as `m`. -/
structure Guards (r : Resource) (m : Managed) (asked : List Request) : Prop where
  /-- Adapters and aggregators are asked only on behalf of a resource with the finalizer. -/
  goesOut : ∀ q ∈ asked, q.goesOut = true → r.hasFinalizer m.finalizer = true
  /-- The finalizer is added only to a resource whose deletion was not requested. -/
  adds : ∀ q finalizer, .addFinalizer q finalizer ∈ asked →
    q = r ∧ finalizer = m.finalizer ∧ r.beingDeleted = false
  /-- The finalizer is removed only from a resource whose deletion was requested. -/
  removes : ∀ q finalizer, .removeFinalizer q finalizer ∈ asked →
    q = r ∧ finalizer = m.finalizer ∧ r.beingDeleted = true
  /-- After the removal of the finalizer nothing but events is left. -/
  last : asked.Pairwise fun x y => x.Removes → y.Records
  /-- A suspended resource is left alone. -/
  suspended : m.suspended = true → asked = []
  /-- A pass that adds the finalizer does nothing else but record this. -/
  adopts : ∀ q finalizer, .addFinalizer q finalizer ∈ asked → asked <+: adoption m

/-- What a pass has asked so far keeps the guards. -/
theorem Guards.of_isPrefix (h : Guards r m asked) (hbegun : begun <+: asked) :
    Guards r m begun where
  goesOut q hq := h.goesOut q (hbegun.subset hq)
  adds q finalizer hq := h.adds q finalizer (hbegun.subset hq)
  removes q finalizer hq := h.removes q finalizer (hbegun.subset hq)
  last := h.last.sublist hbegun.sublist
  suspended hm := List.prefix_nil.mp (h.suspended hm ▸ hbegun)
  adopts q finalizer hq := hbegun.trans (h.adopts q finalizer (hbegun.subset hq))

/-! ## 2. Each kind of pass -/

theorem pairwise_of_not_removes (h : ∀ q ∈ asked, ¬ q.Removes) :
    asked.Pairwise fun x y => x.Removes → y.Records :=
  List.pairwise_iff_forall_sublist.mpr fun hsub hremoves =>
    absurd hremoves (h _ (hsub.subset List.mem_cons_self))

theorem guards_nil (r : Resource) (m : Managed) : Guards r m [] where
  goesOut _ hq := nomatch hq
  adds _ _ hq := nomatch hq
  removes _ _ hq := nomatch hq
  last := .nil
  suspended _ := rfl
  adopts _ _ hq := nomatch hq

/-- A pass that leaves finalizers alone. -/
theorem guards_of_sparesFinalizers (hactive : m.suspended = false)
    (hfinalizer : r.hasFinalizer m.finalizer = true) (h : ∀ q ∈ asked, q.SparesFinalizers) :
    Guards r m asked where
  goesOut _ _ _ := hfinalizer
  adds q finalizer hq := absurd rfl ((h _ hq).1 q finalizer)
  removes q finalizer hq := absurd ⟨q, finalizer, rfl⟩ (h _ hq).2
  last := pairwise_of_not_removes fun q hq => (h q hq).2
  suspended hsuspended := absurd (hactive.symm.trans hsuspended) Bool.false_ne_true
  adopts q finalizer hq := absurd rfl ((h _ hq).1 q finalizer)

/-- A pass that gives a resource its finalizer fails with that, or records it and is to run again at
once. -/
theorem follows_adopt (h : Follows (adopt m) cache xs out after) :
    (∃ e, xs = [⟨.addFinalizer m.resource m.finalizer, .error e⟩] ∧ out = .error e) ∨
    ∃ stored,
      xs = [⟨.addFinalizer m.resource m.finalizer, .ok stored⟩,
        ⟨.record (.normal m.resource "FinalizerAdded" ("Added " ++ m.finalizer)), ()⟩] ∧
      out = .ok { success := true, message := "Finalizer added", requeueAfter := some 0 } := by
  rcases follows_bind.mp h with ⟨ys, zs, stored, mid, rfl, hadd, hrest⟩ | ⟨e, rfl, hadd⟩
  · obtain ⟨reply, rfl, hreply, -⟩ := follows_ask_settle.mp hadd
    obtain ⟨rest, rfl, hend⟩ := follows_record_bind.mp hrest
    obtain ⟨rfl, rfl, -⟩ := follows_pure.mp hend
    exact Or.inr ⟨stored, by rw [hreply]; rfl, rfl⟩
  · obtain ⟨reply, rfl, hreply, -⟩ := follows_ask_settle.mp hadd
    exact Or.inl ⟨e, by rw [hreply], rfl⟩

theorem guards_adopt (hm : m.resource = r) (hactive : m.suspended = false)
    (hdeleted : r.beingDeleted = false) (h : Follows (adopt m) cache xs out after) :
    Guards r m (xs.map (·.request)) := by
  have hwhole : Guards r m (adoption m) := by
    refine
      { goesOut := fun q hq hout => ?_
        adds := fun q finalizer hq => ?_
        removes := fun q finalizer hq => ?_
        last := List.pairwise_pair.mpr fun ⟨_, _, hremoves⟩ => Request.noConfusion hremoves
        suspended := fun hsuspended =>
          absurd (hactive.symm.trans hsuspended) Bool.false_ne_true
        adopts := fun _ _ _ => List.prefix_refl _ }
    · rcases mem_adoption.mp hq with rfl | rfl <;> cases hout
    · rcases mem_adoption.mp hq with hq | hq
      · cases hq
        exact ⟨hm, rfl, hdeleted⟩
      · cases hq
    · rcases mem_adoption.mp hq with hq | hq <;> cases hq
  refine hwhole.of_isPrefix ?_
  rcases follows_adopt h with ⟨e, rfl, -⟩ | ⟨stored, rfl, -⟩
  · exact ⟨_, rfl⟩
  · exact List.prefix_refl _

theorem sparesFinalizers_reconcileActive (h : Follows (reconcileActive ctx m) cache xs out after) :
    ∀ q ∈ xs.map (·.request), q.SparesFinalizers := by
  intro q hq
  obtain ⟨x, hx, rfl⟩ := List.mem_map.mp hq
  refine forall_of_quiet (fun q hq => hq.sparesStore.sparesFinalizers) (fun y hy => ?_) x hx
  rcases request_of_reconcileActive h hy with hread | hservice | ⟨document, hy⟩
  · exact hread.sparesStore.sparesFinalizers
  · exact hservice.sparesStore.sparesFinalizers
  · rw [hy]
    exact Request.sparesFinalizers_updateStatus _ _

/-! ## 3. Deletion -/

/-- The removal stands between what leaves finalizers alone and events. -/
theorem Releases.requests {finalizer : String} (h : Releases r finalizer xs out) :
    ∃ before later, xs.map (·.request) = before ++ .removeFinalizer r finalizer :: later ∧
      (∀ q ∈ before, q.SparesFinalizers) ∧ ∀ q ∈ later, q.Records := by
  obtain ⟨before, reply, hquiet, hbefore, -⟩ := h
  obtain ⟨ys, zs, rfl, hys, hzs⟩ := List.filter_eq_append_iff.mp hquiet
  obtain ⟨noise, later, rfl, hnoise, -, hlater⟩ := List.filter_eq_cons_iff.mp hzs
  have hquietly : quiet (ys ++ noise) = before := by
    have hnoise' : quiet noise = [] := List.filter_eq_nil_iff.mpr hnoise
    rw [quiet_append, hnoise', List.append_nil]
    exact hys
  refine ⟨(ys ++ noise).map (·.request), later.map (·.request), ?_, fun q hq => ?_, fun q hq => ?_⟩
  · rw [← List.append_assoc, List.map_append, List.map_cons]
  · obtain ⟨x, hx, rfl⟩ := List.mem_map.mp hq
    refine forall_of_quiet (fun q hq => hq.sparesStore.sparesFinalizers) (fun y hy => ?_) x hx
    exact (hbefore y (hquietly ▸ hy)).sparesFinalizers
  · obtain ⟨x, hx, rfl⟩ := List.mem_map.mp hq
    exact isRecord_iff.mp (quiet_eq_nil_iff.mp hlater x hx)

theorem guards_of_releases (hactive : m.suspended = false) (hdeleted : r.beingDeleted = true)
    (hfinalizer : r.hasFinalizer m.finalizer = true) (h : Releases r m.finalizer xs out) :
    Guards r m (xs.map (·.request)) := by
  obtain ⟨before, later, hsplit, hbefore, hlater⟩ := h.requests
  rw [hsplit]
  -- what does not leave finalizers alone is the removal
  have hmem {q : Request} (hq : q ∈ before ++ .removeFinalizer r m.finalizer :: later) :
      q.SparesFinalizers ∨ q = .removeFinalizer r m.finalizer := by
    rcases List.mem_append.mp hq with hq | hq
    · exact Or.inl (hbefore q hq)
    · exact (List.mem_cons.mp hq).symm.imp_left fun hq => (hlater q hq).sparesStore.sparesFinalizers
  refine
    { goesOut := fun _ _ _ => hfinalizer
      adds := fun q finalizer hq => ?_
      removes := fun q finalizer hq => ?_
      last := ?_
      suspended := fun hsuspended => absurd (hactive.symm.trans hsuspended) Bool.false_ne_true
      adopts := fun q finalizer hq => ?_ }
  · rcases hmem hq with hspares | hq
    · exact absurd rfl (hspares.1 q finalizer)
    · cases hq
  · rcases hmem hq with hspares | hq
    · exact absurd ⟨q, finalizer, rfl⟩ hspares.2
    · cases hq
      exact ⟨rfl, rfl, hdeleted⟩
  · have hevents := pairwise_of_not_removes fun q hq => (hlater q hq).sparesStore.sparesFinalizers.2
    refine List.pairwise_append.mpr ⟨pairwise_of_not_removes fun q hq => (hbefore q hq).2,
      List.pairwise_cons.mpr ⟨fun y hy _ => hlater y hy, hevents⟩, ?_⟩
    exact fun q hq _ _ hremoves => absurd hremoves (hbefore q hq).2
  · rcases hmem hq with hspares | hq
    · exact absurd rfl (hspares.1 q finalizer)
    · cases hq

theorem guards_reconcileDeleted (hm : m.resource = r) (hactive : m.suspended = false)
    (hdeleted : r.beingDeleted = true) (h : Follows (reconcileDeleted ctx m) cache xs out after) :
    Guards r m (xs.map (·.request)) := by
  subst hm
  cases hfinalizer : m.resource.hasFinalizer m.finalizer with
  | false =>
    rw [reconcileDeleted, hfinalizer] at h
    obtain ⟨rfl, -⟩ := follows_pure.mp h
    exact guards_nil _ _
  | true =>
    rcases follows_reconcileDeleted hfinalizer h with hreleases | ⟨before, x, e, rfl, hx, hbefore, -⟩
    · exact guards_of_releases hactive hdeleted hfinalizer hreleases
    · refine guards_of_sparesFinalizers hactive hfinalizer fun q hq => ?_
      obtain ⟨y, hy, rfl⟩ := List.mem_map.mp hq
      have hspares := sparesStore_of_mem_append hbefore (List.forall_mem_singleton.mpr hx.sparesStore)
      exact (hspares y hy).sparesFinalizers

/-! ## 4. Every pass -/

/-- **The guards of a pass.**  Whatever is replied, a pass over a resource that can be read keeps
them. -/
theorem guards_reconcile (hm : Managed.ofResource r = .ok m)
    (h : Follows (reconcile ctx r) cache xs out after) : Guards r m (xs.map (·.request)) := by
  have hresource := Managed.resource_of_ofResource hm
  rw [reconcile, hm] at h
  dsimp only at h
  split at h
  · obtain ⟨rfl, -⟩ := follows_pure.mp h
    exact guards_nil r m
  rename_i hactive
  rw [Bool.not_eq_true] at hactive
  split at h
  · rename_i hdeleted
    exact guards_reconcileDeleted hresource hactive hdeleted h
  rename_i hdeleted
  rw [Bool.not_eq_true] at hdeleted
  split at h
  · exact guards_adopt hresource hactive hdeleted h
  · rename_i hfinalizer
    rw [Bool.not_eq_true', Bool.not_eq_false] at hfinalizer
    exact guards_of_sparesFinalizers hactive hfinalizer (sparesFinalizers_reconcileActive h)

/-- A pass that adds a finalizer is one that gives its resource the finalizer. -/
theorem follows_adopt_of_adds {q : Resource} {finalizer : String}
    (hm : Managed.ofResource r = .ok m) (h : Follows (reconcile ctx r) cache xs out after)
    (hadds : .addFinalizer q finalizer ∈ xs.map (·.request)) :
    Follows (adopt m) cache xs out after := by
  have hguards := guards_reconcile hm h
  have hdeleted := (hguards.adds q finalizer hadds).2.2
  rw [reconcile, hm] at h
  dsimp only at h
  split at h
  · rename_i hsuspended
    rw [hguards.suspended hsuspended] at hadds
    cases hadds
  rw [hdeleted, if_neg Bool.false_ne_true] at h
  split at h
  · exact h
  · exact absurd rfl ((sparesFinalizers_reconcileActive h _ hadds).1 q finalizer)

theorem reconcile_of_suspended (hm : Managed.ofResource r = .ok m)
    (hsuspended : m.suspended = true) :
    reconcile ctx r = pure { success := true, message := "Reconciliation is suspended" } := by
  rw [reconcile, hm]
  exact if_pos hsuspended

end Reconcile

end Steward
