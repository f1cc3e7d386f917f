import Steward.Proofs.Fallible
import Steward.Proofs.Reconcile.Guards

/-!
# When a pass is to be followed by another

A pass that returns says after how many seconds the next one is due, and only two kinds of resources
are left without one: those that are suspended, and those that are being deleted.  All others are
due again, however the pass ended: at once when they were given their finalizer, after the interval
for errors when the pass was no success, and otherwise after their own interval.
-/

namespace Steward.Reconcile

open Pass

variable {ctx : Context} {m : Managed} {r : Resource} {cache after : Cache} {xs : List Exchange}
  {res : Reconciliation}

/-- The resource can be read, and its passes are suspended. -/
def Suspended (r : Resource) : Prop := ∃ m, Managed.ofResource r = .ok m ∧ m.suspended = true

/-- The resource was given its finalizer. -/
def Adopted (r : Resource) (xs : List Exchange) : Prop :=
  ∃ m stored, Managed.ofResource r = .ok m ∧
    (⟨.addFinalizer r m.finalizer, .ok stored⟩ : Exchange) ∈ xs

/-- The status of a resource was not written. -/
def Lost (xs : List Exchange) : Prop :=
  ∃ q document e, (⟨.updateStatus q document, .error e⟩ : Exchange) ∈ xs

/-- When the pass after one over `r` is due. -/
structure Requeues (ctx : Context) (r : Resource) (xs : List Exchange) (res : Reconciliation) :
    Prop where
  never_iff : res.requeueAfter = none ↔ Suspended r ∨ r.beingDeleted = true
  adopted : Adopted r xs → res.requeueAfter = some 0
  failed : res.success = false → res.requeueAfter = some ctx.settings.errorRequeueInterval
  /-- A resource that cannot be read is no success. -/
  invalid : r.beingDeleted = false → ∀ e, Managed.ofResource r = .error e → res.success = false
  /-- Neither is a pass whose status write was lost. -/
  lost : Lost xs → res.success = false
  succeeded : res.success = true → ¬ Suspended r → r.beingDeleted = false → ¬ Adopted r xs →
    ∃ m, Managed.ofResource r = .ok m ∧ res.requeueAfter = some (Behaviour.interval ctx m)

/-! ## 1. Each kind of pass -/

/-- A report succeeds only where the resource is being deleted, and fails whatever becomes of the
status otherwise. -/
theorem returned_reportInvalid {error : ManagedError}
    (h : Follows (reportInvalid ctx r error) cache xs (.ok res) after) :
    res = if r.beingDeleted then { success := true, message := "Finalizer removed" }
      else ctx.failed error.message := by
  rw [reportInvalid] at h
  cases hdeleted : r.beingDeleted with
  | true =>
    rw [hdeleted, if_pos rfl] at h
    rw [if_pos rfl]
    split at h
    · rcases follows_bind.mp h with ⟨ys, zs, stored, mid, -, -, hend⟩ | ⟨e, hout, -⟩
      · exact Except.ok.inj (follows_pure.mp hend).2.1
      · cases hout
    · exact Except.ok.inj (follows_pure.mp h).2.1
  | false =>
    rw [hdeleted] at h
    rw [if_neg Bool.false_ne_true]
    obtain ⟨ys, zs, reply, mid, -, -, hend⟩ := follows_attempt_bind.mp h
    cases reply with
    | ok stored => exact Except.ok.inj (follows_pure.mp hend).2.1
    | error e =>
      cases e with
      | conflict key version => exact Except.ok.inj (follows_pure.mp hend).2.1
      | _ =>
        rcases follows_bind.mp hend with ⟨_, _, _, _, -, hthrow, -⟩ | ⟨_, hout, -⟩
        · cases (follows_throw.mp hthrow).2.1
        · cases hout

/-- A pass over a resource that is being deleted is not followed by another, if it returns. -/
theorem returned_reconcileDeleted
    (h : Follows (reconcileDeleted ctx m) cache xs (.ok res) after) :
    res.success = true ∧ res.requeueAfter = none := by
  cases hfinalizer : m.resource.hasFinalizer m.finalizer with
  | false =>
    rw [reconcileDeleted_of_no_finalizer hfinalizer] at h
    obtain ⟨-, hres, -⟩ := follows_pure.mp h
    cases hres
    exact ⟨rfl, rfl⟩
  | true =>
    rcases follows_reconcileDeleted hfinalizer h with
      ⟨_, reply, -, -, hres⟩ | ⟨_, _, _, -, -, -, hres⟩
    · obtain ⟨_, -, rfl⟩ := map_eq_ok_iff.mp hres.symm
      exact ⟨rfl, rfl⟩
    · cases hres

/-- An active pass that returns has tried to write the status of its resource once, and that says
whether it is a success. -/
theorem returned_reconcileActive (h : Follows (reconcileActive ctx m) cache xs (.ok res) after) :
    ∃ (b : Behaviour) (reply : Except Failure Resource), res = b.reconciliation ctx m reply ∧
      (Lost xs → ∃ e, reply = .error e) := by
  obtain ⟨b, reads, mid, hreads, hrest⟩ := follows_reconcileActive h
  cases hescape : b.escape? with
  | some e =>
    rw [hescape] at hrest
    cases hrest.2
  | none =>
  rw [hescape] at hrest
  obtain ⟨reply, hquiet, hout⟩ := hrest
  refine ⟨b, reply, ?_, ?_⟩
  · cases reply with
    | ok stored => exact Except.ok.inj hout
    | error e =>
      cases e with
      | conflict key version => exact Except.ok.inj hout
      | _ => cases hout
  · rintro ⟨q, document, e, hx⟩
    have hmem : (⟨.updateStatus q document, .error e⟩ : Exchange) ∈ quiet xs :=
      List.mem_filter.mpr ⟨hx, rfl⟩
    rw [hquiet, List.mem_append, List.mem_append, List.mem_singleton] at hmem
    rcases hmem with (hmem | hmem) | hmem
    · have hspares := (Secret.asks_resolve m _ _ _ _ hreads _ hmem).sparesStore.sparesStatus
      exact absurd rfl (hspares q document)
    · have hspares := (Behaviour.toService_of_mem_calls hmem).sparesStore.sparesStatus
      exact absurd rfl (hspares q document)
    · cases hmem
      exact ⟨e, rfl⟩

/-- An active pass is due again after its interval if it is a success, and else after the one for
errors. -/
theorem Behaviour.requeueAfter_reconciliation (b : Behaviour) (ctx : Context) (m : Managed)
    (reply : Except Failure Resource) :
    (b.reconciliation ctx m reply).requeueAfter =
      some (if (b.reconciliation ctx m reply).success then interval ctx m
        else ctx.settings.errorRequeueInterval) := by
  cases reply with
  | error e => rfl
  | ok stored =>
    rw [reconciliation, result]
    cases b.outcome ctx m <;> rfl

/-! ## 2. Every pass -/

theorem not_lost (h : ∀ x ∈ xs, x.request.SparesStatus) : ¬ Lost xs :=
  fun ⟨q, document, _, hx⟩ => h _ hx q document rfl

theorem not_suspended (hm : Managed.ofResource r = .ok m) (hactive : m.suspended = false) :
    ¬ Suspended r := by
  rintro ⟨m', hm', hsuspended⟩
  cases hm.symm.trans hm'
  cases hactive.symm.trans hsuspended

/-- A pass after which the resource is left alone. -/
theorem requeues_of_left (hleft : Suspended r ∨ r.beingDeleted = true)
    (hsuccess : res.success = true) (hnone : res.requeueAfter = none) (hadopted : ¬ Adopted r xs)
    (hspares : ∀ x ∈ xs, x.request.SparesStatus) : Requeues ctx r xs res where
  never_iff := iff_of_true hnone hleft
  adopted h := absurd h hadopted
  failed h := Bool.noConfusion (h.symm.trans hsuccess)
  invalid hlive e he := by
    rcases hleft with ⟨m, hm, -⟩ | hdeleted
    · cases he.symm.trans hm
    · cases hlive.symm.trans hdeleted
  lost h := absurd h (not_lost hspares)
  succeeded _ hactive hlive := by
    rcases hleft with h | h
    · exact absurd h hactive
    · cases hlive.symm.trans h

theorem requeues_reportInvalid {error : ManagedError} (hr : Managed.ofResource r = .error error)
    (h : Follows (reportInvalid ctx r error) cache xs (.ok res) after) :
    Requeues ctx r xs res := by
  have hsuspended : ¬ Suspended r := fun ⟨_, hm, _⟩ => nomatch hr.symm.trans hm
  have hadopted : ¬ Adopted r xs := fun ⟨_, _, hm, _⟩ => nomatch hr.symm.trans hm
  have hres := returned_reportInvalid h
  cases hdeleted : r.beingDeleted with
  | true =>
    rw [hdeleted, if_pos rfl] at hres
    subst hres
    exact requeues_of_left (.inr hdeleted) rfl rfl hadopted (asks_reportInvalid hdeleted _ _ _ _ h)
  | false =>
    rw [hdeleted, if_neg Bool.false_ne_true] at hres
    subst hres
    exact
      { never_iff := iff_of_false (fun h => nomatch h)
          (not_or.mpr ⟨hsuspended, Bool.eq_false_iff.mp hdeleted⟩)
        adopted := fun h => absurd h hadopted
        failed := fun _ => rfl
        invalid := fun _ _ _ => rfl
        lost := fun _ => rfl
        succeeded := fun h => nomatch h }

theorem requeues_adopt (hm : Managed.ofResource r = .ok m) (hactive : m.suspended = false)
    (hlive : r.beingDeleted = false) (h : Follows (adopt m) cache xs (.ok res) after) :
    Requeues ctx r xs res := by
  have hspares := asks_adopt m _ _ _ _ h
  rcases follows_adopt h with ⟨e, -, hout⟩ | ⟨stored, hxs, hres⟩
  · cases hout
  obtain rfl := Except.ok.inj hres
  have hadopted : Adopted r xs := by
    refine ⟨m, stored, hm, ?_⟩
    rw [hxs, Managed.resource_of_ofResource hm]
    exact List.mem_cons_self
  exact
    { never_iff := iff_of_false (fun h => nomatch h)
        (not_or.mpr ⟨not_suspended hm hactive, Bool.eq_false_iff.mp hlive⟩)
      adopted := fun _ => rfl
      failed := fun h => nomatch h
      invalid := fun _ e he => nomatch he.symm.trans hm
      lost := fun h => absurd h (not_lost hspares)
      succeeded := fun _ _ _ h => absurd hadopted h }

theorem requeues_reconcileActive (hm : Managed.ofResource r = .ok m) (hactive : m.suspended = false)
    (hlive : r.beingDeleted = false)
    (h : Follows (reconcileActive ctx m) cache xs (.ok res) after) : Requeues ctx r xs res := by
  obtain ⟨b, reply, rfl, hlost⟩ := returned_reconcileActive h
  have hdelay := b.requeueAfter_reconciliation ctx m reply
  refine
    { never_iff := ?_
      adopted := ?_
      failed := fun hfailed => ?_
      invalid := fun _ e he => nomatch he.symm.trans hm
      lost := fun h => ?_
      succeeded := fun hsuccess _ _ _ => ⟨m, hm, ?_⟩ }
  · rw [hdelay]
    exact iff_of_false (fun h => nomatch h)
      (not_or.mpr ⟨not_suspended hm hactive, Bool.eq_false_iff.mp hlive⟩)
  · -- an active pass leaves finalizers alone
    rintro ⟨m', stored, -, hx⟩
    have hspares := sparesFinalizers_reconcileActive h _ (List.mem_map_of_mem hx)
    exact absurd rfl (hspares.1 r m'.finalizer)
  · rw [hdelay, hfailed]
    rfl
  · obtain ⟨e, rfl⟩ := hlost h
    rfl
  · rw [hdelay, hsuccess]
    rfl

/-- **When a pass is to be followed by another.**  Whatever the collaborators do, a pass that
returns says so. -/
theorem requeues_reconcile (h : Follows (reconcile ctx r) cache xs (.ok res) after) :
    Requeues ctx r xs res := by
  cases hr : Managed.ofResource r with
  | error e =>
    rw [reconcile, hr] at h
    cases e with
    | unbounded => cases (follows_throw.mp h).2.1
    | _ => exact requeues_reportInvalid hr h
  | ok m =>
    have hguards := guards_reconcile hr h
    cases hactive : m.suspended with
    | true =>
      rw [reconcile_of_suspended hr hactive] at h
      obtain ⟨rfl, hres, -⟩ := follows_pure.mp h
      obtain rfl := Except.ok.inj hres
      have hadopted : ¬ Adopted r [] := by
        rintro ⟨m', stored, -, hx⟩
        cases hx
      exact requeues_of_left (.inl ⟨m, hr, hactive⟩) rfl rfl hadopted (List.forall_mem_nil _)
    | false =>
      cases hdeleted : r.beingDeleted with
      | true =>
        rw [reconcile_of_deleted hr hactive hdeleted] at h
        obtain ⟨hsuccess, hnone⟩ := returned_reconcileDeleted h
        have hspares := asks_reconcileDeleted ctx m _ _ _ _ h
        refine requeues_of_left (.inr hdeleted) hsuccess hnone ?_ hspares
        rintro ⟨m', stored, -, hx⟩
        cases (hguards.adds r m'.finalizer (List.mem_map_of_mem hx)).2.2.symm.trans hdeleted
      | false =>
        rw [reconcile, hr] at h
        dsimp only at h
        rw [hactive, hdeleted, if_neg Bool.false_ne_true, if_neg Bool.false_ne_true] at h
        split at h
        · exact requeues_adopt hr hactive hdeleted h
        · exact requeues_reconcileActive hr hactive hdeleted h

end Steward.Reconcile
