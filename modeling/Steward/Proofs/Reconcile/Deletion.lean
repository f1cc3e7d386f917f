import Steward.Proofs.Reconcile.Writes

/-!
# Deletion is best effort

Whatever goes wrong while a resource that is being deleted (`_reconcile_delete`) is unregistered
(`_unregister_pull`) and its service is cleared (`_cleanup`), the pass goes on and removes the
finalizer, once and after all else; only that may fail it.

There is one exception (`Denied`).  The secret of the connection is read (`resolve_connection`) in
order to reach the service.  That it cannot be resolved is passed over, but if the store fails to
read it, the pass ends there, and the finalizer stays.  `deletion_best_effort` says that this is the
only one.
-/

namespace Steward.Reconcile

open Pass

variable {ctx : Context} {m : Managed} {r : Resource} {cache after : Cache} {xs : List Exchange}
  {out : Except Failure Reconciliation}

/-! ## 1. The release -/

/-- The end of a deletion pass. -/
def release (m : Managed) : Pass Reconciliation := do
  let _ ← Pass.removeFinalizer m.resource m.finalizer
  Pass.record (.normal m.resource "Deleted" ("Removed " ++ m.finalizer))
  return { success := true, message := "Finalizer removed" }

/-- What a deletion pass comes to, given what came of removing the finalizer. -/
def released (reply : Except Failure (Option Resource)) : Except Failure Reconciliation :=
  reply.map fun _ => { success := true, message := "Finalizer removed" }

/-- The pass asked for the finalizer to be removed once, after all else, and ends with what came of
that. -/
def Releases (r : Resource) (finalizer : String) (xs : List Exchange)
    (out : Except Failure Reconciliation) : Prop :=
  ∃ before reply, quiet xs = before ++ [⟨.removeFinalizer r finalizer, reply⟩] ∧
    (∀ x ∈ before, x.request.SparesStore) ∧ out = released reply

theorem follows_release (h : Follows (release m) cache xs out after) :
    ∃ reply, quiet xs = [⟨.removeFinalizer m.resource m.finalizer, reply⟩] ∧
      out = released reply := by
  rcases follows_bind.mp h with ⟨ys, zs, stored, mid, rfl, hremove, hrest⟩ | ⟨e, rfl, hremove⟩
  · obtain ⟨reply, rfl, hreply, -⟩ := follows_ask_settle.mp hremove
    obtain ⟨rest, rfl, hend⟩ := follows_record_bind.mp hrest
    obtain ⟨rfl, rfl, -⟩ := follows_pure.mp hend
    refine ⟨reply, rfl, ?_⟩
    rw [← hreply]
    rfl
  · obtain ⟨reply, rfl, hreply, -⟩ := follows_ask_settle.mp hremove
    refine ⟨reply, rfl, ?_⟩
    rw [← hreply]
    rfl

/-- What is left of a deletion pass ends with the release, after exchanges that spare the store. -/
theorem follows_release_after {begun : List Exchange}
    (hbegun : ∀ x ∈ begun, x.request.SparesStore) (h : Follows (release m) cache xs out after) :
    Releases m.resource m.finalizer (begun ++ xs) out := by
  obtain ⟨reply, hquiet, hout⟩ := follows_release h
  refine ⟨quiet begun, reply, ?_, fun x hx => hbegun x (List.mem_filter.mp hx).1, hout⟩
  rw [quiet_append, hquiet]

/-! ## 2. The whole pass -/

/-- Unregistering does not fail the pass, whatever comes of it. -/
theorem follows_unregister {out : Except Failure Unit}
    (h : Follows (unregister ctx m) cache xs out after) : out = .ok () := by
  rw [unregister] at h
  split at h
  · split at h
    · obtain ⟨ys, zs, result, mid, -, -, hend⟩ := follows_attempt_bind.mp h
      exact (follows_pure.mp hend).2.1
    · exact (follows_pure.mp h).2.1
  · exact (follows_pure.mp h).2.1

/-- The store fails to read the secret of the connection, for a reason of its own. -/
def Denied (m : Managed) (e : Failure) (x : Exchange) : Prop :=
  (∃ ref, m.connection.apiKeyRef = some ref ∧ x = ⟨.getSecret m.ns ref.name, .error e⟩) ∧
    ¬ e.OfSecret

theorem Denied.sparesStore {e : Failure} {x : Exchange} (h : Denied m e x) :
    x.request.SparesStore := by
  obtain ⟨⟨ref, -, rfl⟩, -⟩ := h
  rfl

theorem Denied.isRecord {e : Failure} {x : Exchange} (h : Denied m e x) : isRecord x = false := by
  obtain ⟨⟨ref, -, rfl⟩, -⟩ := h
  rfl

/-- One reply is of one failure. -/
theorem Denied.unique {e e' : Failure} {x : Exchange} (h : Denied m e x) (k : Denied m e' x) :
    e = e' := by
  obtain ⟨⟨ref, href, rfl⟩, -⟩ := h
  obtain ⟨⟨ref', href', hsame⟩, -⟩ := k
  rw [href, Option.some.injEq] at href'
  subst href'
  cases hsame
  rfl

theorem sparesStore_of_mem_append {xs ys : List Exchange}
    (hxs : ∀ x ∈ xs, x.request.SparesStore) (hys : ∀ x ∈ ys, x.request.SparesStore) :
    ∀ x ∈ xs ++ ys, x.request.SparesStore :=
  fun x hx => (List.mem_append.mp hx).elim (hxs x) (hys x)

/-- A deletion pass spares the store until it removes the finalizer, and ends with that, unless it
is denied the secret of the connection before. -/
theorem follows_reconcileDeleted (hfinalizer : m.resource.hasFinalizer m.finalizer = true)
    (h : Follows (reconcileDeleted ctx m) cache xs out after) :
    Releases m.resource m.finalizer xs out ∨ ∃ before x e,
      xs = before ++ [x] ∧ Denied m e x ∧ (∀ y ∈ before, y.request.SparesStore) ∧ out = .error e := by
  rw [reconcileDeleted_of_finalizer hfinalizer] at h
  rcases Or.symm (follows_bind.mp h) with ⟨e, -, hfailed⟩ | ⟨first, rest, u, mid, rfl, hfirst, hrest⟩
  · cases follows_unregister hfailed
  have hfirstSpares := asks_unregister ctx m _ _ _ _ hfirst
  obtain ⟨reads, rest, secrets, mid', rfl, hreads, hresolved⟩ := follows_attempt_bind.mp hrest
  have hbegun := sparesStore_of_mem_append hfirstSpares fun x hx =>
    (asks_resolveConnection m _ _ _ _ hreads x hx).sparesStore
  cases secrets with
  | ok secrets =>
    obtain ⟨clearing, rest, result, mid'', rfl, hclear, hcleared⟩ :=
      follows_attempt_bind.mp hresolved
    have hall := sparesStore_of_mem_append hbegun fun x hx =>
      (asks_clearService m _ _ _ _ _ hclear x hx).sparesStore
    rw [← List.append_assoc, ← List.append_assoc]
    cases result with
    | ok _ => exact Or.inl (follows_release_after hall hcleared)
    | error e =>
      -- that the service could not be cleared is recorded
      obtain ⟨rest, rfl, hend⟩ := follows_record_bind.mp hcleared
      have hrecord (ev : Event) : ∀ x ∈ [(⟨.record ev, ()⟩ : Exchange)], x.request.SparesStore :=
        List.forall_mem_singleton.mpr rfl
      rw [List.append_cons]
      exact Or.inl (follows_release_after (sparesStore_of_mem_append hall (hrecord _)) hend)
  | error e =>
    rw [← List.append_assoc]
    cases e with
    | secret s => exact Or.inl (follows_release_after hbegun hresolved)
    | _ =>
      refine Or.inr ?_
      rcases follows_bind.mp hresolved with ⟨ys, zs, v, mid'', -, hthrow, -⟩ | ⟨e, rfl, hthrow⟩
      · cases (follows_throw.mp hthrow).2.1
      obtain ⟨rfl, he, -⟩ := follows_throw.mp hthrow
      rw [Except.error.injEq] at he
      subst he
      rcases Secret.failed_resolveConnection hreads rfl with ⟨s, hs⟩ | ⟨ref, href, rfl⟩
      · cases hs
      refine ⟨first, _, _, List.append_nil _, ⟨⟨ref, href, rfl⟩, ?_⟩, hfirstSpares, rfl⟩
      rintro ⟨s, hs⟩
      cases hs

/-- A resource that is being deleted and is not suspended gets a deletion pass. -/
theorem reconcile_of_deleted (hm : Managed.ofResource r = .ok m) (hactive : m.suspended = false)
    (hdeleted : r.beingDeleted = true) : reconcile ctx r = reconcileDeleted ctx m := by
  simp [reconcile, hm, hactive, hdeleted]

/-! ## 3. Best effort -/

theorem Releases.mem {finalizer : String} (h : Releases r finalizer xs out) :
    ∃ reply, (⟨.removeFinalizer r finalizer, reply⟩ : Exchange) ∈ xs := by
  obtain ⟨before, reply, hquiet, -, -⟩ := h
  have hmem : (⟨.removeFinalizer r finalizer, reply⟩ : Exchange) ∈ quiet xs := by
    rw [hquiet]
    exact List.mem_append_right _ (List.mem_singleton_self _)
  exact ⟨reply, (List.mem_filter.mp hmem).1⟩

/-- The last exchange is among those that are not recorded events, if it is none itself. -/
theorem quiet_append_singleton {x : Exchange} (hx : isRecord x = false) (xs : List Exchange) :
    quiet (xs ++ [x]) = quiet xs ++ [x] := by
  rw [quiet_append, quiet_cons, hx]
  rfl

theorem Releases.not_denied {finalizer : String} (h : Releases r finalizer xs out)
    {before : List Exchange} {x : Exchange} {e : Failure} (hxs : xs = before ++ [x]) :
    ¬ Denied m e x := by
  intro hx
  obtain ⟨before', reply, hquiet, -, -⟩ := h
  rw [hxs, quiet_append_singleton hx.isRecord] at hquiet
  have hlast := (List.append_inj' hquiet rfl).2
  have hspares := hx.sparesStore
  rw [List.head_eq_of_cons_eq hlast] at hspares
  cases hspares

/-- **Deletion is best effort, but for one reading.**  Whatever the store, the aggregator and the
adapter do before, a pass over a resource that is being deleted removes the finalizer once and last,
and succeeds unless this fails, exactly if it does not end with the store failing to read the secret
of the connection.  If it does, the pass fails with that, and the finalizer stays. -/
theorem deletion_best_effort (hm : Managed.ofResource r = .ok m) (hactive : m.suspended = false)
    (hdeleted : r.beingDeleted = true) (hfinalizer : r.hasFinalizer m.finalizer = true)
    (h : Program.Follows (reconcile ctx r).program xs out) :
    (Releases r m.finalizer xs out ↔ ¬ ∃ before x e, xs = before ++ [x] ∧ Denied m e x) ∧
    ∀ before x e, xs = before ++ [x] → Denied m e x →
      out = .error e ∧ ∀ y ∈ xs, y.request.SparesStore := by
  obtain ⟨after, h⟩ := follows_program.mp h
  have hresource := Managed.resource_of_ofResource hm
  rw [reconcile_of_deleted hm hactive hdeleted] at h
  rw [← hresource] at hfinalizer
  have hcases := follows_reconcileDeleted hfinalizer h
  rw [hresource] at hcases
  rcases hcases with hreleases | ⟨before, x, e, rfl, hx, hbefore, rfl⟩
  · refine ⟨⟨fun _ ⟨before, x, e, hxs, hx⟩ => hreleases.not_denied hxs hx, fun _ => hreleases⟩, ?_⟩
    intro before x e hxs hx
    exact absurd hx (hreleases.not_denied hxs)
  · refine ⟨⟨fun hreleases => ?_, fun hnot => absurd ⟨before, x, e, rfl, hx⟩ hnot⟩, ?_⟩
    · exact absurd hx (hreleases.not_denied rfl)
    · intro before' x' e' hxs hx'
      obtain ⟨-, hxx'⟩ := List.append_inj' hxs rfl
      rw [← List.head_eq_of_cons_eq hxx'] at hx'
      rw [hx.unique hx']
      exact ⟨rfl, sparesStore_of_mem_append hbefore (List.forall_mem_singleton.mpr hx.sparesStore)⟩

/-- The aggregator is not read, the service does not say its state, and the finalizer is removed. -/
theorem deletion_best_effort_films :
    let ctx : Context :=
      ⟨{}, fun _ _ _ => .ok { app := "radarr" }, ⟨2024, 1, 1, 0, 0, 0, 0, some 0⟩⟩
    let films : Resource :=
      { kind := "RadarrConfig", name := "films", deletion := some ctx.now
        finalizers := ["radarrconfig.arr-operator.io/finalizer"]
        spec := [("connection", .object [("url", .string "http://films")]),
          ("indexers", .object [("prowlarrRef", .object [("name", .string "main")])])] }
    let conn : State.Connection := { url := "http://films" }
    let lost : Failure := .raised "OSError" "reset"
    let xs : List Exchange :=
      [⟨.getResource "ProwlarrConfig" "default" "main", .error lost⟩,
        ⟨.findAdapter "radarr", .ok (some ⟨false, false⟩)⟩,
        ⟨.currentState "radarr" conn, .error lost⟩,
        ⟨.record (.warning films "CleanupFailed" "reset"), ()⟩,
        ⟨.removeFinalizer films "radarrconfig.arr-operator.io/finalizer", .ok none⟩,
        ⟨.record (.normal films "Deleted" "Removed radarrconfig.arr-operator.io/finalizer"), ()⟩]
    let out : Except Failure Reconciliation := .ok { success := true, message := "Finalizer removed" }
    ∃ m, Managed.ofResource films = .ok m ∧ m.suspended = false ∧ films.beingDeleted = true ∧
      films.hasFinalizer m.finalizer = true ∧
      Program.Follows (reconcile ctx films).program xs out ∧
      (Releases films m.finalizer xs out ↔ ¬ ∃ before x e, xs = before ++ [x] ∧ Denied m e x) := by
  intro ctx films conn lost xs out
  have hfollows : Program.Follows (reconcile ctx films).program xs out := by
    dsimp only [ctx, films]
    exact .ask (.ask (.ask (.ask (.ask (.ask (.done _))))))
  exact ⟨_, rfl, rfl, rfl, by decide, hfollows,
    (deletion_best_effort rfl rfl rfl (by decide) hfollows).1⟩

/-- The store fails to read the secret of the connection, and the finalizer is not removed. -/
theorem not_released_films :
    ¬ ∀ (ctx : Context) (r : Resource) (m : Managed) (xs : List Exchange)
        (out : Except Failure Reconciliation),
      Managed.ofResource r = .ok m → m.suspended = false → r.beingDeleted = true →
      r.hasFinalizer m.finalizer = true → Program.Follows (reconcile ctx r).program xs out →
      Releases r m.finalizer xs out := by
  intro h
  let ctx : Context :=
    ⟨{}, fun _ _ _ => .ok { app := "radarr" }, ⟨2024, 1, 1, 0, 0, 0, 0, some 0⟩⟩
  let films : Resource :=
    { kind := "RadarrConfig", name := "films", deletion := some ctx.now
      finalizers := ["radarrconfig.arr-operator.io/finalizer"]
      spec := [("connection", .object [("url", .string "http://films"),
        ("apiKeySecretRef", .object [("name", .string "films-key")])])] }
  let lost : Failure := .raised "RuntimeError" "store"
  have hfollows : Program.Follows (reconcile ctx films).program
      [⟨.getSecret "default" "films-key", .error lost⟩] (.error lost) := by
    dsimp only [ctx, films]
    exact .ask (.done _)
  obtain ⟨reply, hmem⟩ := (h ctx films _ _ _ rfl rfl rfl (by decide) hfollows).mem
  cases congrArg Program.Exchange.request (List.mem_singleton.mp hmem)

end Steward.Reconcile
