import Steward.Proofs.Coordinate.Writes
import Steward.Proofs.Reconcile.Writes
import Steward.Proofs.Run.Actors
import Steward.Proofs.Run.Exchanges
import Steward.Proofs.Store.Keyed

/-!
# No update is lost

Reconciliation passes (`_persist`) and coordination passes (`_write_registration`) write whole
statuses, each from an earlier read.  Of what a pass has read, listed resources included, the store
holds the same or a higher version (`Informed`), so a write that is accepted finds what its document
was made of.  It changes nothing but what its writer is there for: a coordination pass writes the
registration, a reconciliation pass leaves it alone, and with it the conditions of types that are
not its own.
-/

namespace Steward.Run

open Pass

section Informed

variable {c : Cast} {w w' w₀ : World c}

/-! ## 1. What was read -/

/-- The store is keyed, and knows all that its parties have read. -/
structure Informed (w : World c) : Prop where
  keyed : w.store.Keyed
  known : ∀ t ∈ w.tasks, ∀ x ∈ t.asked, ∀ r ∈ brought x, w.store.Known r

theorem keyed_serves {s s' : MemoryStore} {x : Exchange} (h : Serves s x s') (hs : s.Keyed) :
    s'.Keyed := by
  cases h with
  | finalizerAdded r finalizer _ => exact hs.addFinalizer r finalizer
  | finalizerRemoved r finalizer _ => exact hs.removeFinalizer r finalizer
  | _ => exact hs

theorem keyed_step (h : Step w w') (hw : w.store.Keyed) : w'.store.Keyed := by
  cases h with
  | begin p hp hgiven => exact hw
  | ask htasks hserves => exact keyed_serves hserves hw
  | write htasks hcurrent harrives => exact hw.updateStatus _ _
  | leave htasks => exact hw
  | edit kind ns name spec => exact hw.setSpec kind ns name spec
  | delete kind ns name now => exact hw.requestDeletion kind ns name now

/-- What a reply brings is stored at that time. -/
theorem known_brought {s s' : MemoryStore} {x : Exchange} (h : Serves s x s') (hs : s.Keyed) :
    ∀ r ∈ brought x, s.Known r := by
  intro r hr
  cases h with
  | found kind ns name => exact MemoryStore.known_of_find? (Option.mem_toList.mp hr)
  | listed kind ns => exact hs.known_of_mem_list hr
  | finalizerAdded q finalizer _ => cases hr
  | finalizerRemoved q finalizer _ => cases hr
  | lost hx => exact (List.ne_nil_of_mem hr (brought_of_refused hx)).elim
  | elsewhere hx => exact (List.ne_nil_of_mem hr (brought_of_elsewhere hx)).elim

/-- An exchange of a party after a step is one from before the step, or the one of the step. -/
theorem Step.mem_asked (h : Step w w') {t : Task c} (ht : t ∈ w'.tasks) {x : Exchange}
    (hx : x ∈ t.asked) :
    (∃ t₀ ∈ w.tasks, x ∈ t₀.asked) ∨ brought x = [] ∨ ∃ s', Serves w.store x s' := by
  obtain ⟨told, rest, hasked⟩ := List.append_of_mem hx
  rcases h.exchanges ht hasked with ⟨t₀, ht₀, -, rest₀, hasked₀⟩ | hreplies
  · refine Or.inl ⟨t₀, ht₀, ?_⟩
    rw [hasked₀]
    exact List.mem_append_right _ List.mem_cons_self
  · cases hreplies with
    | served hserves => exact Or.inr (Or.inr ⟨_, hserves⟩)
    | accepted _ _ _ => exact Or.inr (Or.inl rfl)

theorem Step.moves (h : Step w w') (hw : w.Sound) :
    MemoryStore.Moves (fun _ _ => True) w.store w'.store := by
  rcases (h.spec hw).2 with hspares | ⟨x, r, status, haccepts⟩
  · exact hspares.moves.mono fun _ _ _ => trivial
  · rw [haccepts.store, haccepts.after]
    exact MemoryStore.moves_written haccepts.current

theorem Step.informed (h : Step w w') (hsound : w.Sound) (hw : Informed w) : Informed w' where
  keyed := keyed_step h hw.keyed
  known t ht x hx r hr := by
    refine MemoryStore.Known.moves ?_ (h.moves hsound)
    rcases h.mem_asked ht hx with ⟨t₀, ht₀, hx₀⟩ | hnone | ⟨s', hserves⟩
    · exact hw.known t₀ ht₀ x hx₀ r hr
    · rw [hnone] at hr
      cases hr
    · exact known_brought hserves hw.keyed r hr

theorem Runs.informed (hrun : Runs w₀ w) (hidle : w₀.tasks = []) (hkeyed : w₀.store.Keyed) :
    Informed w := by
  induction hrun with
  | refl =>
    refine ⟨hkeyed, fun t ht => ?_⟩
    rw [hidle] at ht
    cases ht
  | tail hbefore hstep ih => exact hstep.informed (Runs.sound hbefore hidle) ih

/-- A write is made by a party at work. -/
theorem Step.mem_tasks_of_writes (h : Step w w') {x : Write c} (hwrites : w'.writes = x :: w.writes) :
    ∃ rest, ⟨x.party, x.asked, rest⟩ ∈ w.tasks := by
  have hsame : w.writes ≠ x :: w.writes := (List.cons_ne_self x w.writes).symm
  cases h with
  | @write pre post p asked r before status next reply htasks hcurrent harrives =>
    obtain ⟨rfl, -⟩ := List.cons.inj hwrites
    refine ⟨.ask (.updateStatus r status) next, ?_⟩
    rw [htasks]
    exact List.mem_append_right _ List.mem_cons_self
  | _ => exact absurd hwrites hsame

end Informed

/-! ## 2. What a write changes -/

/-- The types of the conditions that reconciliation passes set. -/
def ownTypes : List String := [Condition.connected, Condition.synced, Condition.ready]

/-- The conditions that reconciliation passes do not set. -/
def foreign (cs : Conditions) : Conditions := cs.filter fun c => !ownTypes.contains c.type

/-- The document is the status `s` with changes that are the actor's own to make. -/
def Actor.Amends (s : Status) (document : Json.Members) : Actor → Prop
  | .reconciler .. => ∃ s' : Status, document = s'.toMembers ∧
      s'.registration = s.registration ∧ foreign s'.conditions = foreign s.conditions
  | .coordinator .. => ∃ record : RegistrationRecord,
      document = { s with registration := some record }.toMembers
  | .other _ => True

theorem foreign_status (b : Reconcile.Behaviour) (ctx : Reconcile.Context) (m : Managed) :
    foreign (b.status ctx m).conditions = foreign m.status.conditions := by
  refine Reconcile.Behaviour.filter_announce (p := fun type => !ownTypes.contains type) _ ?_
  intro signal hsignal
  have hown : signal.type ∈ ownTypes :=
    (b.sublist_types_signals ctx m).subset (List.mem_map_of_mem hsignal)
  rw [List.contains_iff_mem.mpr hown]
  rfl

/-- A reconciliation pass writes the status that it was given with its resource, amended. -/
theorem amends_reconciler {ctx : Reconcile.Context} {r : Resource} {s : Status} {cache : Cache}
    {asked : List Exchange} {document : Json.Members} (hs : Status.ofMembers r.status = .ok s)
    (h : Reconcile.WritesStatus ctx r cache asked document) :
    (Actor.reconciler ctx r).Amends s document := by
  cases h with
  | @active m b reads mid hm hreads hquiet =>
    have hstatus := Managed.status_of_ofResource hm
    rw [hs, Except.ok.injEq] at hstatus
    rw [hstatus]
    exact ⟨_, rfl, rfl, foreign_status b ctx m⟩
  | @invalid error _ =>
    refine ⟨_, rfl, ?_, ?_⟩
    · rw [Reconcile.invalidStatus, hs]
    · rw [Reconcile.invalidStatus, hs]
      exact Conditions.filter_put (p := fun type => !ownTypes.contains type) _ rfl

/-- A registration record is put into the status that was read. -/
theorem amends_coordinator {ctx : Coordinate.Context} {r q : Resource} {s : Status} {m : Managed}
    {record : RegistrationRecord} (hs : Status.ofMembers q.status = .ok s)
    (hm : Managed.ofResource q = .ok m) :
    (Actor.coordinator ctx r).Amends s (Coordinate.withRecord m record) := by
  have hstatus := Managed.status_of_ofResource hm
  rw [hs, Except.ok.injEq] at hstatus
  rw [hstatus]
  exact ⟨record, rfl⟩

/-! ## 3. Accepted writes -/

variable {w₀ w w' : World actors} {x : Write actors} {r : Resource} {document : Json.Members}
  {s : Status}

/-- What is written is the stored status, amended. -/
theorem Accepts.amends_stored (h : Accepts w w' x r document) (hw : Informed w)
    {rest : Program signature (Except Failure x.party.Result)}
    (htask : ⟨x.party, x.asked, rest⟩ ∈ w.tasks)
    (hs : Status.ofMembers x.before.status = .ok s) : x.party.Amends s document := by
  obtain ⟨reply, later, out, after, hfollows⟩ := h.follows
  obtain ⟨party, asked, before, written⟩ := x
  cases party with
  | reconciler ctx q =>
    obtain ⟨rfl, hwrites⟩ := Reconcile.follows_reconcile_updateStatus hfollows
    have hknown := h.known r (List.mem_append_left _ (List.mem_singleton_self r))
    have hbefore : before = r := hknown.eq_of_current h.current
    exact amends_reconciler (hbefore ▸ hs) hwrites
  | coordinator ctx q =>
    have hknowing : AsksKnowing Coordinate.WritesRecord [] (coordinate ctx q) :=
      Coordinate.writesRecord_coordinate ctx q
    obtain ⟨⟨y, hy, hr⟩, m, record, hm, rfl⟩ :=
      hknowing _ _ _ _ hfollows _ _ _ rfl r document rfl
    have hknown := hw.known _ htask y hy r hr
    have hbefore : before = r := hknown.eq_of_current h.current
    exact amends_coordinator (hbefore ▸ hs) hm
  | other p => trivial

/-- The step is the status write `x` of the document: it is logged, and it replaces the resource
that was stored immediately before. -/
structure Updates (w w' : World actors) (x : Write actors) (document : Json.Members) : Prop where
  writes : w'.writes = x :: w.writes
  before : w.store.find? x.before.kind x.before.ns x.before.name = some x.before
  after : x.after = MemoryStore.written x.before document
  store : w'.store = w.store.put x.after
  /-- The document is the status that was stored, with the changes of the writer alone. -/
  amends : ∀ s, Status.ofMembers x.before.status = .ok s → x.party.Amends s document

/-- **No update is lost.**  However passes and other writers take turns, a step writes no status, or
it writes the one that was stored immediately before, and changes nothing in it but what is the
writer's own. -/
theorem no_lost_update (hidle : w₀.tasks = []) (hkeyed : w₀.store.Keyed) (hrun : Runs w₀ w)
    (hstep : Step w w') : Spares w w' ∨ ∃ x document, Updates w w' x document := by
  have hinformed := hrun.informed hidle hkeyed
  refine (hstep.spec (hrun.sound hidle)).2.imp_right fun ⟨x, r, document, haccepts⟩ => ?_
  obtain ⟨rest, htask⟩ := hstep.mem_tasks_of_writes haccepts.writes
  refine ⟨x, document, haccepts.writes, ?_, haccepts.after, haccepts.store, fun s hs => ?_⟩
  · obtain ⟨hfind, -⟩ := MemoryStore.current_eq_ok haccepts.current
    obtain ⟨h₁, h₂, h₃⟩ := MemoryStore.isAt_of_find? hfind
    rwa [h₁, h₂, h₃]
  · exact haccepts.amends_stored hinformed htask hs

/-- A coordination pass loses the race for a resource that is edited meanwhile, and writes its record
on a fresh read. -/
theorem no_lost_update_films :
    let ctx : Coordinate.Context := ⟨{}, ⟨2024, 1, 1, 0, 0, 0, 0, some 0⟩⟩
    let indexers : Json := .object [("prowlarrRef",
      .object [("name", .string "main"), ("autoRegister", .bool false)])]
    let films : Resource :=
      { kind := "RadarrConfig", name := "films"
        spec := [("connection", .object [("url", .string "http://films")]), ("indexers", indexers)] }
    let key : Json := .object [("name", .string "key")]
    let main : Resource :=
      { kind := "ProwlarrConfig", name := "main", status := [("connected", .bool true)]
        spec := [("connection", .object [("url", .string "http://main"), ("apiKeySecretRef", key)])] }
    let moved : Json.Members :=
      [("connection", .object [("url", .string "http://films:7878")]), ("indexers", indexers)]
    let lost : Failure := .conflict films.key films.version
    let w₀ : World actors := { store := { resources := [films, main] } }
    w₀.tasks = [] ∧ w₀.store.Keyed ∧ ∃ w w' x first document, Runs w₀ w ∧ Step w w' ∧
      x.party = .coordinator ctx main ∧ ⟨.updateStatus films first, .error lost⟩ ∈ x.asked ∧
      x.before = { films with spec := moved, generation := 2, version := 2 } ∧
      Updates w w' x document := by
  intro ctx indexers films key main moved lost w₀
  let fresh : Resource := { films with spec := moved, generation := 2, version := 2 }
  let store : MemoryStore := w₀.store.setSpec "RadarrConfig" "default" "films" moved
  let reads : List Exchange :=
    [⟨.getSecret "default" "key", .ok (some [("apiKey", "a2V5")])⟩,
      ⟨.listResources "SonarrConfig" "default", .ok []⟩,
      ⟨.listResources "RadarrConfig" "default", .ok [films]⟩]
  have hkeyed : w₀.store.Keyed := by
    intro r hr
    rcases List.mem_cons.mp hr with rfl | hr
    · rfl
    · rw [List.mem_singleton.mp hr]
      rfl
  obtain ⟨first, second, next, next', hfirst, hsecond⟩ : ∃ (first second : Json.Members)
      (next next' : Except Failure Resource → Program signature (Except Failure Coordination)),
      Program.Leads (coordinate ctx main).program reads (.ask (.updateStatus films first) next) ∧
      Program.Leads (S := signature) (.ask (.updateStatus films first) next)
        [⟨.updateStatus films first, .error lost⟩,
          ⟨.getResource "RadarrConfig" "default" "films", .ok (some fresh)⟩]
        (.ask (.updateStatus fresh second) next') := by
    dsimp only [ctx, indexers, films, key, main, moved, lost, fresh, reads]
    exact ⟨_, _, _, _, .ask (.ask (.ask (.refl _))), .ask (.ask (.refl _))⟩
  have hreads : ∀ x ∈ reads, Serves w₀.store x w₀.store := by
    have hlisted {kind : String} {rs : List Resource}
        (h : w₀.store.list kind (some "default") = rs) :
        Serves w₀.store ⟨.listResources kind "default", .ok rs⟩ w₀.store := by
      rw [← h]
      exact .listed kind "default"
    intro x hx
    rcases List.mem_cons.mp hx with rfl | hx
    · exact .elsewhere rfl
    rcases List.mem_cons.mp hx with rfl | hx
    · exact hlisted List.mergeSort_nil
    · rw [List.mem_singleton.mp hx]
      exact hlisted (List.mergeSort_singleton films)
  let retried : List Exchange :=
    [⟨.updateStatus films first, .error lost⟩,
      ⟨.getResource "RadarrConfig" "default" "films", .ok (some fresh)⟩]
  have hretried : ∀ x ∈ retried, Serves store x store := by
    intro x hx
    rcases List.mem_cons.mp hx with rfl | hx
    · exact .lost rfl
    · rw [List.mem_singleton.mp hx]
      exact .found "RadarrConfig" "default" "films"
  have hgiven : ∀ r ∈ [main], w₀.store.find? r.kind r.ns r.name = some r := by
    intro r hr
    rw [List.mem_singleton.mp hr]
    rfl
  have hbegin := @Step.begin actors w₀ (.coordinator ctx main) trivial hgiven
  have hread := Relation.ReflTransGen.head hbegin
    (runs_serves (c := actors) (p := .coordinator ctx main) hfirst hreads [])
  have hrun := (hread.tail (.edit "RadarrConfig" "default" "films" moved)).trans
    (runs_serves (c := actors) (p := .coordinator ctx main) hsecond hretried _)
  have hstep := @Step.write actors
    ⟨store, [⟨.coordinator ctx main, reads ++ retried, .ask (.updateStatus fresh second) next'⟩], []⟩
    [] [] (.coordinator ctx main) _ fresh fresh second next' _ rfl rfl (Or.inl rfl)
  rcases no_lost_update rfl hkeyed hrun hstep with hspares | ⟨x, document, hupdates⟩
  · cases hspares.writes
  · obtain ⟨rfl, -⟩ := List.cons.inj hupdates.writes
    exact ⟨rfl, hkeyed, _, _, _, first, document, hrun, hstep, rfl,
      List.mem_append_right _ List.mem_cons_self, rfl, hupdates⟩

end Steward.Run
