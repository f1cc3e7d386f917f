import Steward.Proofs.Reconcile.Guards
import Steward.Proofs.Run.Actors

/-!
# The lifecycle of a resource

A pass (`ConfigReconciler.reconcile`) decides by its snapshot, which may be stale by the time it
asks: the deletion of the resource may have been requested in the meantime, by a user or by anyone
else.  The guards of the pass are those of the snapshot (`Reconcile.Guards`).  What they mean for
the store comes from versions: a finalizer is only added or removed (`add_finalizer`,
`remove_finalizer`) where the store still holds the snapshot.
-/

namespace Steward.Run

open Pass Reconcile

variable {w₀ w : World actors} {ctx : Context} {r : Resource} {m : Managed}
  {asked : List Exchange} {rest : Program signature (Except Failure Reconciliation)}

/-! ## 1. What is guarded -/

/-- A pass over the snapshot `r`, which reads as `m`, that has asked `asked` and goes on with `rest`
on the store `s`. -/
structure Guarded (s : MemoryStore) (r : Resource) (m : Managed) (asked : List Exchange)
    (rest : Program signature (Except Failure Reconciliation)) : Prop where
  /-- What it has asked and asks next keeps the guards of its snapshot. -/
  guards : Guards r m (asked.map (·.request) ++ rest.pending)
  /-- The store will not add the finalizer to a resource whose deletion was requested. -/
  adds : ∀ q finalizer stored, .addFinalizer q finalizer ∈ rest.pending → s.current q = .ok stored →
    stored.beingDeleted = false
  /-- The store will remove the finalizer only from a resource whose deletion was requested. -/
  removes : ∀ q finalizer stored, .removeFinalizer q finalizer ∈ rest.pending →
    s.current q = .ok stored → stored.beingDeleted = true
  /-- Over a suspended snapshot it is done as soon as it begins. -/
  suspended : m.suspended = true →
    rest = .done (.ok { success := true, message := "Reconciliation is suspended" })
  /-- If it gave the resource its finalizer, it is to run again at once. -/
  adopted : ∀ q finalizer stored out, ⟨.addFinalizer q finalizer, .ok stored⟩ ∈ asked →
    rest = .done out →
    out = .ok { success := true, message := "Finalizer added", requeueAfter := some 0 }

/-! ## 2. Snapshots and the store -/

/-- A request that is based on the snapshot of a pass is only carried out on that snapshot. -/
theorem eq_of_current {s : MemoryStore} {q stored : Resource}
    (h : Task.Sound (c := actors) s ⟨.reconciler ctx r, asked, rest⟩) (hq : q = r)
    (hcurrent : s.current q = .ok stored) : stored = r := by
  subst hq
  exact (h.known q (List.mem_append_left _ (List.mem_singleton_self q))).eq_of_current hcurrent

/-- **The lifecycle is guarded by the finalizer.**  However passes, users and others take turns, a
pass over a resource that can be read asks adapters and aggregators only if its snapshot has the
finalizer, and none after it has removed it; and the store adds the finalizer only to a resource
whose deletion was not requested, and removes it only from one whose deletion was. -/
theorem lifecycle_guarded (hidle : w₀.tasks = []) (hrun : Runs w₀ w)
    (ht : ⟨.reconciler ctx r, asked, rest⟩ ∈ w.tasks) (hm : Managed.ofResource r = .ok m) :
    Guarded w.store r m asked rest := by
  have hsound := hrun.sound hidle _ ht
  obtain ⟨xs, result, after, hfollows, hbegins⟩ := hsound.exists_follows
  have hguards := (guards_reconcile hm hfollows).of_isPrefix hbegins
  refine
    { guards := hguards
      adds := fun q finalizer stored hq hcurrent => ?_
      removes := fun q finalizer stored hq hcurrent => ?_
      suspended := fun hsuspended => ?_
      adopted := fun q finalizer stored out hadded hdone => ?_ }
  · obtain ⟨hr, -, hlive⟩ := hguards.adds q finalizer (List.mem_append_right _ hq)
    rwa [eq_of_current hsound hr hcurrent]
  · obtain ⟨hr, -, hdeleted⟩ := hguards.removes q finalizer (List.mem_append_right _ hq)
    rwa [eq_of_current hsound hr hcurrent]
  · obtain ⟨hasked, hpending⟩ := List.append_eq_nil_iff.mp (hguards.suspended hsuspended)
    cases rest with
    | ask request next => cases hpending
    | done ended =>
      obtain ⟨after, hwhole⟩ := hsound.follows_of_done rfl
      have hpure : Follows (reconcile ctx r) [] asked ended after := hwhole
      rw [reconcile_of_suspended hm hsuspended] at hpure
      rw [(follows_pure.mp hpure).2.1]
  · obtain ⟨after, hwhole⟩ := hsound.follows_of_done hdone
    have hadopt := follows_adopt_of_adds hm hwhole (List.mem_map.mpr ⟨_, hadded, rfl⟩)
    rcases follows_adopt hadopt with ⟨e, hasked, -⟩ | ⟨-, -, hout⟩
    · dsimp only at hasked
      rw [hasked] at hadded
      cases List.mem_singleton.mp hadded
    · exact hout

/-- A pass is about to add the finalizer when the deletion of its resource is requested, which
another finalizer holds back.  The store refuses. -/
theorem lifecycle_guarded_films :
    let ctx : Context :=
      ⟨{}, fun _ _ _ => .ok { app := "radarr" }, ⟨2024, 1, 1, 0, 0, 0, 0, some 0⟩⟩
    let films : Resource :=
      { kind := "RadarrConfig", name := "films", finalizers := ["backup"]
        spec := [("connection", .object [("url", .string "http://films")])] }
    let finalizer := "radarrconfig.arr-operator.io/finalizer"
    let w₀ : World actors := { store := { resources := [films] } }
    w₀.tasks = [] ∧ ∃ w m next, Runs w₀ w ∧
      ⟨.reconciler ctx films, [], .ask (.addFinalizer films finalizer) next⟩ ∈ w.tasks ∧
      Managed.ofResource films = .ok m ∧
      w.store.current films = .error (.conflict films.key films.version) ∧
      Guarded w.store films m [] (.ask (.addFinalizer films finalizer) next) := by
  intro ctx films finalizer w₀
  have hgiven : ∀ r ∈ [films], w₀.store.find? r.kind r.ns r.name = some r := by
    intro r hr
    rw [List.mem_singleton.mp hr]
    rfl
  have hbegin := @Step.begin actors w₀ (.reconciler ctx films) trivial hgiven
  have hrun := (Relation.ReflTransGen.single hbegin).tail
    (.delete "RadarrConfig" "default" "films" ctx.now)
  obtain ⟨m, next, hm, hnext⟩ : ∃ m next, Managed.ofResource films = .ok m ∧
      (reconcile ctx films).program = .ask (.addFinalizer films finalizer) next := by
    dsimp only [ctx, films, finalizer]
    exact ⟨_, _, rfl, rfl⟩
  have htask : ⟨.reconciler ctx films, [], .ask (.addFinalizer films finalizer) next⟩ ∈
      [(⟨.reconciler ctx films, [], (reconcile ctx films).program⟩ : Task actors)] := by
    rw [hnext]
    exact List.mem_singleton_self _
  exact ⟨rfl, _, m, next, hrun, htask, hm, rfl, lifecycle_guarded rfl hrun htask hm⟩

end Steward.Run
