import Steward.Proofs.Controller.Queue
import Steward.Proofs.Reconcile.Successor
import Steward.Simulation.Running

/-!
# Every pass schedules its successor

However a reconciliation pass ends, its task (`_reconcile_resource`) then asks the store once to
schedule the next one (`schedule_reconcile`), and triggers a coordination if the result calls for it
(`Successor`).  A task that has done so is gone for good (`Gone`), so that no other step of a run
does either for it.  When the next pass is due is what the pass said, or follows from the error that
it raised.
-/

namespace Steward

/-- What a reconciliation task leaves behind: the next pass of its resource is scheduled, and the
coordination of an aggregator may be triggered. -/
structure Successor where
  task : Nat
  resource : Resource
  delay : Option Int
  aggregator : Option (String × String)

namespace Controller

variable {c c' : Controller} {s : Step} {steps before later : List Step} {id : Nat}
  {t : ControllerTask} {r : Resource} {result : Reconciliation} {x : Successor}

/-- What a task leaves behind that has come to a result. -/
def successor (id : Nat) (r : Resource) (result : Reconciliation) : Successor :=
  ⟨id, r, result.requeueAfter, coordinationAfter r result⟩

/-- What tasks leave behind in a step: only the end of a reconciliation task schedules anything. -/
def successors (c : Controller) : Step → List Successor
  | .scheduled id => match c.task? id with
    | some (.reconcile r (.scheduling result)) => [successor id r result]
    | _ => []
  | _ => []

/-- What tasks leave behind in a run. -/
def successorsIn (c : Controller) : List Step → List Successor
  | [] => []
  | s :: rest => c.successors s ++ (c.step s).successorsIn rest

/-- What one task leaves behind in a run. -/
def successorsOf (c : Controller) (id : Nat) (steps : List Step) : List Successor :=
  (c.successorsIn steps).filter (·.task == id)

/-! ## 1. Steps -/

theorem mem_successors (h : x ∈ c.successors s) : s = .scheduled x.task ∧ ∃ result,
    c.task? x.task = some (.reconcile x.resource (.scheduling result)) ∧
      x = successor x.task x.resource result := by
  cases s with
  | scheduled id =>
    rw [successors] at h
    split at h
    · rename_i r result ht
      obtain rfl := List.mem_singleton.mp h
      exact ⟨rfl, result, ht, rfl⟩
    · cases h
  | _ => cases h

theorem successors_scheduled (ht : c.task? id = some (.reconcile r (.scheduling result))) :
    c.successors (.scheduled id) = [successor id r result] := by
  simp only [successors, ht]

/-- A task that has come to a result stays with it until it ends. -/
theorem task?_step_of_scheduling (hs : s ≠ .stop) (hne : s ≠ .scheduled id)
    (ht : c.task? id = some (.reconcile r (.scheduling result))) :
    (c.step s).task? id = some (.reconcile r (.scheduling result)) := by
  by_cases hid : s.task? = some id
  · cases s with
    | scheduled other => exact absurd (congrArg Step.scheduled (Option.some.inj hid)) hne
    | begin | reconciled | wake | coordinated =>
      cases hid
      simp only [step, begin, reconciled, wake, coordinated, ht]
    | _ => cases hid
  · exact task?_step_of_ne ht hs hid

/-! ## 2. Tasks that are gone -/

/-- There was a task of this number, and it has ended. -/
structure Gone (c : Controller) (id : Nat) : Prop where
  notMem : id ∉ c.ids
  lt : id < c.spawned

theorem Gone.task? (h : c.Gone id) : c.task? id = none := by
  cases ht : c.task? id with
  | none => rfl
  | some t => exact absurd (List.mem_map_of_mem (f := Prod.fst) (mem_of_task? ht)) h.notMem

theorem Gone.spawn (h : c.Gone id) (t : ControllerTask) : (c.spawn t).Gone id where
  notMem := by
    have hids : (c.spawn t).ids = c.ids ++ [c.spawned] := List.map_append
    rw [hids, List.mem_append, List.mem_singleton]
    exact not_or.mpr ⟨h.notMem, Nat.ne_of_lt h.lt⟩
  lt := Nat.lt_succ_of_lt h.lt

/-- Numbers are not given twice. -/
theorem Moves.gone (hmove : Moves c c') (h : c.Gone id) : c'.Gone id := by
  obtain ⟨hnot, hlt⟩ := h
  cases hmove with
  | start => exact ⟨hnot, hlt⟩
  | launch r =>
    exact Gone.spawn (c := { c with inFlight := c.inFlight ++ [r.key] }) ⟨hnot, hlt⟩ _
  | enqueue ns name delay =>
    exact Gone.spawn (c := { c with pending := c.pending ++ [(ns, name)] }) ⟨hnot, hlt⟩ _
  | advance next h | doze h | depart _ h =>
    -- the numbers are what they were
    rw [ids, h, List.map_append] at hnot
    refine ⟨?_, hlt⟩
    rw [ids, List.map_append]
    exact hnot
  | land h | finish h | quit _ h =>
    rw [ids, h, List.map_append, List.map_cons] at hnot
    refine ⟨fun hmem => hnot ?_, hlt⟩
    rw [ids, List.map_append] at hmem
    exact ((List.sublist_cons_self _ _).append_left _).subset hmem

/-- What becomes of a controller where a task leaves something behind. -/
structure Leaves (c : Controller) (x : Successor) (c' : Controller) : Prop where
  gone : c'.Gone x.task
  /-- The resource is no longer in flight. -/
  landed : x.resource.key ∉ c'.inFlight
  /-- The coordination is queued, and no other. -/
  pending : ∀ aggregator, aggregator ∈ c'.pending ↔
    aggregator ∈ c.pending ∨ x.aggregator = some aggregator

theorem inFlight_queue (c : Controller) (ns name : String) (delay : Int) :
    (c.queue ns name delay).inFlight = c.inFlight := by
  rw [queue]
  split <;> rfl

theorem gone_queue (h : c.Gone id) (ns name : String) (delay : Int) :
    (c.queue ns name delay).Gone id := by
  rw [queue]
  split
  · exact h
  · exact Gone.spawn (c := { c with pending := c.pending ++ [(ns, name)] }) ⟨h.notMem, h.lt⟩ _

theorem gone_endTask (hc : c.Numbered) (ht : c.task? id = some t) : (c.endTask id).Gone id where
  notMem hmem := by
    obtain ⟨e, he, hid⟩ := List.mem_map.mp hmem
    exact bne_iff_ne.mp (List.mem_filter.mp he).2 hid
  lt := hc.lt id (List.mem_map_of_mem (f := Prod.fst) (mem_of_task? ht))

/-- The end of a reconciliation task. -/
theorem leaves_of_mem (hc : c.Numbered) (h : x ∈ c.successors s) : c.Leaves x (c.step s) := by
  obtain ⟨rfl, result, ht, hx⟩ := mem_successors h
  have hlanded : x.resource.key ∉ ((c.land x.resource.key).endTask x.task).inFlight := by
    intro hmem
    exact bne_iff_ne.mp (List.mem_filter.mp hmem).2 rfl
  have hgone : ((c.land x.resource.key).endTask x.task).Gone x.task :=
    gone_endTask (c := c.land x.resource.key) ⟨hc.nodup, hc.lt⟩ ht
  have haggregator : x.aggregator = coordinationAfter x.resource result := by rw [hx]; rfl
  rw [step, scheduled, ht]
  dsimp only
  cases hafter : coordinationAfter x.resource result with
  | none =>
    refine ⟨hgone, hlanded, fun aggregator => ?_⟩
    rw [haggregator, hafter, or_iff_left (Option.some_ne_none aggregator).symm]
    rfl
  | some aggregator =>
    obtain ⟨ns, name⟩ := aggregator
    refine ⟨gone_queue hgone ns name 0, ?_, fun aggregator => ?_⟩
    · change _ ∉ (queue _ ns name 0).inFlight
      rwa [inFlight_queue]
    · rw [haggregator, hafter, Option.some.injEq, eq_comm (b := aggregator)]
      exact mem_pending_queue _ ns name 0

/-! ## 3. Runs -/

theorem Numbered.step (hc : c.Numbered) (hs : s ≠ .stop) : (c.step s).Numbered :=
  (hc.step_keeps (P := fun _ => True) (fun _ _ => trivial) hs trivial).1

theorem Numbered.run (hc : c.Numbered) (hsteps : ∀ s ∈ steps, s ≠ .stop) :
    (c.run steps).Numbered :=
  (hc.run_keeps (P := fun _ => True) (fun _ _ => trivial) hsteps trivial).1

theorem successorsIn_append (c : Controller) (xs ys : List Step) :
    c.successorsIn (xs ++ ys) = c.successorsIn xs ++ (c.run xs).successorsIn ys := by
  induction xs generalizing c with
  | nil => rfl
  | cons s rest ih =>
    rw [List.cons_append, successorsIn, successorsIn, ih, List.append_assoc]
    rfl

theorem successorsOf_append (c : Controller) (id : Nat) (xs ys : List Step) :
    c.successorsOf id (xs ++ ys) = c.successorsOf id xs ++ (c.run xs).successorsOf id ys := by
  simp only [successorsOf, successorsIn_append, List.filter_append]

theorem successorsOf_cons (c : Controller) (id : Nat) (s : Step) (rest : List Step) :
    c.successorsOf id (s :: rest) =
      (c.successors s).filter (·.task == id) ++ (c.step s).successorsOf id rest :=
  List.filter_append _ _

theorem filter_successors_eq_nil (h : ∀ x ∈ c.successors s, x.task ≠ id) :
    (c.successors s).filter (·.task == id) = [] :=
  List.filter_eq_nil_iff.mpr fun x hx hid => h x hx (beq_iff_eq.mp hid)

/-- A task that is gone leaves nothing more behind. -/
theorem Gone.successorsOf (hc : c.Numbered) (hsteps : ∀ s ∈ steps, s ≠ .stop) (h : c.Gone id) :
    c.successorsOf id steps = [] := by
  induction steps generalizing c with
  | nil => rfl
  | cons s rest ih =>
    rw [List.forall_mem_cons] at hsteps
    obtain ⟨hc', h'⟩ := hc.step_keeps Moves.gone hsteps.1 h
    rw [successorsOf_cons, ih hc' hsteps.2 h', List.append_nil]
    refine filter_successors_eq_nil fun x hx hid => ?_
    obtain ⟨-, result, ht, -⟩ := mem_successors hx
    rw [hid, h.task?] at ht
    cases ht

/-- A task that is there has left nothing behind yet. -/
theorem successorsOf_of_task? (hc : c.Numbered) (hsteps : ∀ s ∈ steps, s ≠ .stop)
    (ht : (c.run steps).task? id = some t) : c.successorsOf id steps = [] := by
  induction steps generalizing c with
  | nil => rfl
  | cons s rest ih =>
    rw [List.forall_mem_cons] at hsteps
    have hc' := hc.step hsteps.1
    rw [successorsOf_cons, ih hc' hsteps.2 ht, List.append_nil]
    refine filter_successors_eq_nil fun x hx hid => ?_
    have hgone := (hc'.run_keeps Moves.gone hsteps.2 (leaves_of_mem hc hx).gone).2
    rw [hid] at hgone
    cases hgone.task?.symm.trans ht

/-- A task that has come to a result leaves one successor behind, when it ends. -/
theorem successorsOf_of_scheduling (hc : c.Numbered) (hsteps : ∀ s ∈ steps, s ≠ .stop)
    (ht : c.task? id = some (.reconcile r (.scheduling result))) :
    (.scheduled id ∉ steps ∧ c.successorsOf id steps = []) ∨
      (.scheduled id ∈ steps ∧ c.successorsOf id steps = [successor id r result]) := by
  induction steps generalizing c with
  | nil => exact .inl ⟨List.not_mem_nil, rfl⟩
  | cons s rest ih =>
    rw [List.forall_mem_cons] at hsteps
    have hc' := hc.step hsteps.1
    rw [successorsOf_cons, List.mem_cons]
    by_cases hs : s = .scheduled id
    · -- the task ends
      subst hs
      have hmem : successor id r result ∈ c.successors (.scheduled id) := by
        rw [successors_scheduled ht]
        exact List.mem_singleton_self _
      have hgone : (c.step (.scheduled id)).Gone id := (leaves_of_mem hc hmem).gone
      refine .inr ⟨.inl rfl, ?_⟩
      rw [successors_scheduled ht, hgone.successorsOf hc' hsteps.2, List.append_nil]
      exact List.filter_cons_of_pos (beq_self_eq_true id)
    · have hnil : (c.successors s).filter (·.task == id) = [] := by
        refine filter_successors_eq_nil fun x hx hid => hs ?_
        rw [(mem_successors hx).1, hid]
      rw [hnil, List.nil_append, or_iff_right (Ne.symm hs)]
      exact ih hc' hsteps.2 (task?_step_of_scheduling hsteps.1 hs ht)

/-- The settings stay what they were. -/
theorem Moves.settings (hmove : Moves c c') {settings : Settings.Controller}
    (h : c.settings = settings) : c'.settings = settings := by
  cases hmove <;> exact h

/-- The pass of a task has ended: the task leaves one successor behind, when it ends. -/
theorem successorsOf_of_running (settings : Settings.Controller) (spawned : Nat)
    (hbefore : ∀ s ∈ before, s ≠ .stop) (hlater : ∀ s ∈ later, s ≠ .stop)
    (ht : ((idle settings spawned).run before).task? id = some (.reconcile r .running))
    (outcome : Except Failure Reconciliation) :
    let all := (idle settings spawned).successorsOf id (before ++ .reconciled id outcome :: later)
    (.scheduled id ∉ later ∧ all = []) ∨
      (.scheduled id ∈ later ∧ all = [successor id r (resultOf settings outcome)]) := by
  have hidle := numbered_idle settings spawned
  obtain ⟨hc, hsettings⟩ := hidle.run_keeps (P := fun d => d.settings = settings)
    (fun hmove h => hmove.settings h) hbefore rfl
  intro all
  have hall : all = ((idle settings spawned).run before).successorsOf id
      (.reconciled id outcome :: later) := by
    rw [show all = _ from successorsOf_append _ _ _ _, successorsOf_of_task? hidle hbefore ht,
      List.nil_append]
  generalize (idle settings spawned).run before = c at *
  have hstep : (c.step (.reconciled id outcome)).task? id =
      some (.reconcile r (.scheduling (resultOf settings outcome))) := by
    rw [step, reconciled, ht, ← hsettings]
    exact hc.task?_setTask ht _
  rw [hall]
  exact successorsOf_of_scheduling (hc.step Step.noConfusion) hlater hstep

/-! ## 4. Delays -/

/-- The aggregator that is to be coordinated after a pass over the resource: the one that the result
names, or else the resource itself, if it is one. -/
inductive Coordinates (r : Resource) (res : Reconciliation) : String → Prop
  | named {name : String} (h : res.aggregator = some name) (hname : name ≠ "") :
      Coordinates r res name
  | itself (h : ∀ name, res.aggregator = some name → name = "")
      (hkind : r.kind = Kind.aggregatorName) : Coordinates r res r.name

/-- Without a name, only a resource that is an aggregator is coordinated. -/
theorem coordinates_iff_of_unnamed {name : String}
    (h : ∀ name, result.aggregator = some name → name = "") :
    Coordinates r result name ↔ r.kind = Kind.aggregatorName ∧ name = r.name := by
  constructor
  · intro hname
    cases hname with
    | named haggregator hne => exact absurd (h name haggregator) hne
    | itself _ hkind => exact ⟨hkind, rfl⟩
  · rintro ⟨hkind, rfl⟩
    exact .itself h hkind

theorem coordinates_iff_of_named {name named : String} (h : result.aggregator = some named)
    (hne : named ≠ "") : Coordinates r result name ↔ name = named := by
  constructor
  · intro hname
    cases hname with
    | named haggregator _ => exact Option.some.inj (haggregator.symm.trans h)
    | itself hunnamed => exact absurd (hunnamed named h) hne
  · rintro rfl
    exact .named h hne

theorem coordinationAfter_eq_some_iff {ns name : String} :
    coordinationAfter r result = some (ns, name) ↔
      result.success = true ∧ ns = r.ns ∧ Coordinates r result name := by
  have hitself : (if r.kind = Kind.aggregatorName then some (r.ns, r.name) else none) =
      some (ns, name) ↔ ns = r.ns ∧ r.kind = Kind.aggregatorName ∧ name = r.name := by
    rw [Option.ite_none_right_eq_some, Option.some.injEq, Prod.mk.injEq, and_left_comm,
      eq_comm (a := ns), eq_comm (a := name)]
  rw [coordinationAfter]
  cases hsuccess : result.success with
  | false => exact iff_of_false (fun h => nomatch h) fun h => nomatch h.1
  | true =>
    rw [Bool.not_true, if_neg Bool.false_ne_true, and_iff_right rfl]
    cases haggregator : result.aggregator with
    | none =>
      rw [hitself, coordinates_iff_of_unnamed fun name h => nomatch haggregator.symm.trans h]
    | some named =>
      dsimp only
      by_cases hempty : named = ""
      · have hunnamed : ∀ name, result.aggregator = some name → name = "" := by
          intro name h
          rw [haggregator, Option.some.injEq] at h
          rw [← h, hempty]
        rw [if_neg (by rw [hempty]; decide), hitself, coordinates_iff_of_unnamed hunnamed]
      · rw [if_pos (by rw [Bool.not_eq_true', String.isEmpty_eq_false_iff]; exact hempty),
          coordinates_iff_of_named haggregator hempty, Option.some.injEq, Prod.mk.injEq,
          eq_comm (a := ns), eq_comm (a := name)]

/-- What a task leaves behind after a pass that ended so. -/
structure Due (ctx : Reconcile.Context) (r : Resource) (xs : List Pass.Exchange)
    (outcome : Except Failure Reconciliation) (x : Successor) : Prop where
  /-- The delay is the one that the pass asked for, -/
  returned : ∀ res, outcome = .ok res →
    x.delay = res.requeueAfter ∧ Reconcile.Requeues ctx r xs res
  /-- none after a conflict, -/
  conflict : ∀ key version, outcome = .error (.conflict key version) → x.delay = some 0
  /-- and the one for errors after any other error. -/
  raised : ∀ e, outcome = .error e → (∀ key version, e ≠ .conflict key version) →
    x.delay = some ctx.settings.errorRequeueInterval
  triggers : ∀ ns name, x.aggregator = some (ns, name) ↔
    ∃ res, outcome = .ok res ∧ res.success = true ∧ ns = r.ns ∧ Coordinates r res name

theorem due_successor {ctx : Reconcile.Context} {xs : List Pass.Exchange}
    {outcome : Except Failure Reconciliation} (id : Nat)
    (h : Program.Follows (Reconcile.reconcile ctx r).program xs outcome) :
    Due ctx r xs outcome (successor id r (resultOf ctx.settings outcome)) where
  returned res hres := by
    subst hres
    obtain ⟨after, h⟩ := Pass.follows_program.mp h
    exact ⟨rfl, Reconcile.requeues_reconcile h⟩
  conflict key version he := by
    subst he
    rfl
  raised e he hconflict := by
    subst he
    cases e with
    | conflict key version => exact absurd rfl (hconflict key version)
    | _ => rfl
  triggers ns name := by
    refine coordinationAfter_eq_some_iff.trans ?_
    cases outcome with
    | ok res => simp only [resultOf, Except.ok.injEq, exists_eq_left']
    | error e =>
      -- no error makes a result that is a success
      refine iff_of_false (fun h => ?_) fun ⟨_, h, _⟩ => nomatch h
      cases e <;> cases h.1

end Controller

/-! ## 5. In a simulated world -/

namespace Simulation

theorem schedule_disturb (s : Simulation) (method : StoreMethod) (name : Option String) :
    (s.disturb method name).2.schedule = s.schedule := by
  rw [disturb]
  split <;> rfl

theorem schedule_call {α : Type} (s : Simulation) (method : StoreMethod) (name : Option String)
    (run : MemoryStore → Except Failure α × MemoryStore) :
    (s.call method name run).2.schedule = s.schedule := by
  rw [← s.schedule_disturb method name, call]
  split <;> rename_i h <;> rw [h]

theorem schedule_callAdapter {α : Type} (s : Simulation) (service : String)
    (method : AdapterMethod) (details : Json.Members) (value : Adapter → α) :
    (s.callAdapter service method details value).2.schedule = s.schedule := by
  rw [callAdapter]
  split <;> rfl

/-- No request of a pass schedules anything. -/
theorem schedule_answer (s : Simulation) (r : Pass.Request) :
    (s.answer r).2.schedule = s.schedule := by
  cases r with
  | getResource | listResources | getSecret | updateStatus | addFinalizer | removeFinalizer =>
    exact schedule_call _ _ _ _
  | connect | discover | currentState | diff | apply | applyDirect | health =>
    exact schedule_callAdapter _ _ _ _ _
  | http | findAdapter | record => rfl

/-- The call that schedules the next pass writes one line, unless it fails. -/
theorem schedule_scheduleNext (s : Simulation) (r : Resource) (delay : Option Int) :
    (s.scheduleNext r delay).schedule = match (s.disturb .schedule (some r.name)).1 with
      | .ok _ => Table.set s.schedule r.key delay
      | .error _ => s.schedule := by
  rw [← s.schedule_disturb .schedule (some r.name), scheduleNext]
  split <;> rename_i h <;> rw [h]

end Simulation

namespace Trial

variable {t : Trial} {id : Nat} {r : Resource}

/-- A pass leaves the schedule alone, and its task goes on with what came of it. -/
theorem reconcileTask_eq (ht : t.controller.task? id = some (.reconcile r .running))
    (htime : 0 < t.controller.settings.reconcileTimeout) :
    (t.reconcileTask id).controller = t.controller.step
        (.reconciled id (t.world.run (Reconcile.reconcile t.reconcileContext r)).1) ∧
      (t.reconcileTask id).schedule = t.schedule := by
  obtain ⟨xs, -, hplays⟩ := Program.exists_follows_run Simulation.world
    (Reconcile.reconcile t.reconcileContext r).program t.world
  have hkept : (t.world.run (Reconcile.reconcile t.reconcileContext r)).2.schedule = t.schedule :=
    hplays.keeps fun x _ s => Simulation.schedule_answer s x.request
  simp only [reconcileTask, ht, taskPass, if_pos htime]
  exact ⟨rfl, hkept⟩

/-- The pass of a task and its end are two steps of the controller, and write one line of the
schedule; the controller does not notice whether that succeeds. -/
theorem scheduleTask_eq (hc : t.controller.Numbered)
    (ht : t.controller.task? id = some (.reconcile r .running))
    (htime : 0 < t.controller.settings.reconcileTimeout) :
    let outcome := (t.world.run (Reconcile.reconcile t.reconcileContext r)).1
    ((t.reconcileTask id).scheduleTask id).controller =
        t.controller.run [.reconciled id outcome, .scheduled id] ∧
      ((t.reconcileTask id).scheduleTask id).schedule =
        match ((t.reconcileTask id).world.disturb .schedule (some r.name)).1 with
        | .ok _ => Table.set t.schedule r.key
            (Controller.resultOf t.controller.settings outcome).requeueAfter
        | .error _ => t.schedule := by
  intro outcome
  obtain ⟨hcontroller, hschedule⟩ := reconcileTask_eq ht htime
  have ht' : (t.reconcileTask id).controller.task? id =
      some (.reconcile r (.scheduling (Controller.resultOf t.controller.settings outcome))) := by
    rw [hcontroller, Controller.step, Controller.reconciled, ht]
    exact hc.task?_setTask ht _
  rw [← hschedule, scheduleTask, ht']
  refine ⟨?_, Simulation.schedule_scheduleNext _ _ _⟩
  rw [Controller.run, List.foldl_cons, ← hcontroller]
  rfl

end Trial

namespace Controller

variable {before later : List Step} {id : Nat} {r : Resource}

/-- **Every pass has one successor.**  However the pass of a task ends, the task leaves one
successor behind, in the step that ends it, and none before or after.  Its delay is `none` exactly if
the pass returned and the resource is suspended or being deleted, and otherwise follows from what
became of the pass (`Due`).  Then the task is gone, its resource may be reconciled again, and the
coordination that the result calls for is queued; and so it is if the store fails to schedule the
next pass. -/
theorem one_successor (ctx : Reconcile.Context) (spawned : Nat)
    (hbefore : ∀ s ∈ before, s ≠ .stop) (hlater : ∀ s ∈ later, s ≠ .stop)
    (ht : ((idle ctx.settings spawned).run before).task? id = some (.reconcile r .running))
    {xs : List Pass.Exchange} {outcome : Except Failure Reconciliation}
    (hpass : Program.Follows (Reconcile.reconcile ctx r).program xs outcome) :
    let c := idle ctx.settings spawned
    let steps := before ++ .reconciled id outcome :: later
    ∃ x : Successor, x.task = id ∧ x.resource = r ∧ Due ctx r xs outcome x ∧
      ((.scheduled id ∉ later ∧ c.successorsOf id steps = []) ∨
        (.scheduled id ∈ later ∧ c.successorsOf id steps = [x])) ∧
      (∀ first s last, steps = first ++ s :: last → x ∈ (c.run first).successors s →
        (c.run first).Leaves x ((c.run first).step s)) ∧
      ∀ t : Trial, t.controller = c.run before → t.reconcileContext = ctx →
        (t.world.run (Reconcile.reconcile ctx r)).1 = outcome → 0 < ctx.settings.reconcileTimeout →
        ((t.reconcileTask id).scheduleTask id).controller =
            t.controller.run [.reconciled id outcome, .scheduled id] ∧
          ((t.reconcileTask id).scheduleTask id).schedule =
            match ((t.reconcileTask id).world.disturb .schedule (some r.name)).1 with
            | .ok _ => Table.set t.schedule r.key x.delay
            | .error _ => t.schedule := by
  intro c steps
  have hidle : c.Numbered := numbered_idle ctx.settings spawned
  refine ⟨successor id r (resultOf ctx.settings outcome), rfl, rfl, due_successor id hpass,
    successorsOf_of_running ctx.settings spawned hbefore hlater ht outcome, ?_, ?_⟩
  · intro first s last hsteps hx
    refine leaves_of_mem (hidle.run fun s' hs' => ?_) hx
    have hmem : s' ∈ steps := by
      rw [hsteps]
      exact List.mem_append_left _ hs'
    rcases List.mem_append.mp hmem with h | h
    · exact hbefore s' h
    · rcases List.mem_cons.mp h with rfl | h
      · exact Step.noConfusion
      · exact hlater s' h
  · intro t hcontroller hcontext houtcome htime
    have hsettings : t.controller.settings = ctx.settings := by
      rw [← hcontext]
      rfl
    have hnumbered : t.controller.Numbered := by
      rw [hcontroller]
      exact hidle.run hbefore
    have ht' : t.controller.task? id = some (.reconcile r .running) := by rwa [hcontroller]
    have hends := Trial.scheduleTask_eq hnumbered ht' (by rwa [hsettings])
    rw [hcontext, houtcome, hsettings] at hends
    exact hends

/-- An aggregator is given its finalizer, and the store fails to schedule its next pass: its
coordination is queued nevertheless. -/
theorem one_successor_adopted :
    let index : Resource :=
      { kind := "ProwlarrConfig", name := "index"
        spec := [("connection", .object [("url", .string "http://index")])] }
    let before : List Step := [.dispatch [index], .begin 0]
    let outcome : Except Failure Reconciliation :=
      .ok { success := true, message := "Finalizer added", requeueAfter := some 0 }
    let t : Trial :=
      { store := { resources := [index] }
        faults := [{ method := .schedule, disturbance := .fail (.raised "RuntimeError" "store") }]
        controller := (idle {} 0).run before }
    ∃ x, (idle {} 0).successorsOf 0 (before ++ .reconciled 0 outcome :: [.scheduled 0]) = [x] ∧
      x.delay = some 0 ∧ x.aggregator = some ("default", "index") ∧
      ((t.reconcileTask 0).scheduleTask 0).schedule = [] ∧
      ((t.reconcileTask 0).scheduleTask 0).controller.pending = [("default", "index")] := by
  intro index before outcome t
  have hbefore : ∀ s ∈ before, s ≠ .stop := by simp [before]
  have hlater : ∀ s ∈ [Step.scheduled 0], s ≠ .stop := by simp
  have ht : ((idle t.reconcileContext.settings 0).run before).task? 0 =
      some (.reconcile index .running) := rfl
  have hworld : (t.world.run (Reconcile.reconcile t.reconcileContext index)).1 = outcome := rfl
  obtain ⟨xs, hpass, -⟩ := Program.exists_follows_run Simulation.world
    (Reconcile.reconcile t.reconcileContext index).program t.world
  obtain ⟨x, -, -, hdue, hall, -, htrial⟩ :=
    one_successor t.reconcileContext 0 hbefore hlater ht hpass
  obtain ⟨hcontroller, hschedule⟩ := htrial t rfl rfl rfl (by decide)
  refine ⟨x, hall.elim (fun h => absurd (List.mem_singleton_self _) h.1) (·.2),
    (hdue.returned _ hworld).1, ?_, hschedule.trans rfl, ?_⟩
  · refine (hdue.triggers "default" "index").mpr ⟨_, hworld, rfl, rfl, ?_⟩
    exact .itself (fun _ h => nomatch h) rfl
  · rw [hcontroller]
    rfl

end Controller

end Steward
