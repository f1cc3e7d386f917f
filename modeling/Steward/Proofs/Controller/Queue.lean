import Steward.Proofs.Controller.Moves

/-!
# Triggers are deduplicated, and none is lost

While the controller runs, an aggregator is queued (`_pending_coordination`) exactly as long as
there is a task for it whose pass has not begun, and there are never two.  A trigger
(`trigger_coordination`) that finds its aggregator queued is dropped; it is not lost, since the task
that is there begins its pass later (`triggers_kept`).  That tasks which wait or sleep come to their
turn is all that is asked of the order of steps (`Fair`).
-/

namespace Steward

/-- The task coordinates an aggregator, and its pass has not begun. -/
def ControllerTask.awaits (aggregator : String × String) : ControllerTask → Bool
  | .coordination ns name stage => stage.unbegun && (ns, name) == aggregator
  | .reconcile .. => false

namespace Controller

variable {c c' : Controller} {s : Step} {id : Nat} {t : ControllerTask} {ns name : String}
  {aggregator : String × String}

/-- The number of tasks of an aggregator whose pass has not begun. -/
def queued (c : Controller) (aggregator : String × String) : Nat := c.count (·.awaits aggregator)

/-! ## 1. The book of the queue -/

/-- The controller runs, and there is one task for each aggregator that is queued. -/
structure QueueBooked (c : Controller) : Prop where
  running : c.running = true
  tallies : Tallies c.pending c.queued

theorem queueBooked_start (settings : Settings.Controller) (spawned : Nat) :
    (idle settings spawned).start.QueueBooked := ⟨rfl, fun _ => rfl⟩

theorem queued_spawn_reconcile (c : Controller) (r : Resource) (stage : ReconcileStage) :
    (c.spawn (.reconcile r stage)).queued = c.queued := by
  funext aggregator
  exact count_spawn c _ _

theorem queued_spawn_coordination (c : Controller) (ns name : String) {stage : CoordinationStage}
    (hstage : stage.unbegun = true) :
    (c.spawn (.coordination ns name stage)).queued =
      fun aggregator => c.queued aggregator + if (ns, name) = aggregator then 1 else 0 := by
  funext aggregator
  simp only [queued, count_spawn, ControllerTask.awaits, hstage, Bool.true_and, beq_iff_eq]

section

variable {before after : List (Nat × ControllerTask)}

theorem queued_of_reconcile {r : Resource} {stage : ReconcileStage}
    (h : c.tasks = before ++ (id, .reconcile r stage) :: after) :
    c.queued = fun aggregator => (before ++ after).countP fun e => e.2.awaits aggregator := by
  funext aggregator
  exact count_of_tasks h _

theorem queued_of_unbegun {stage : CoordinationStage} (hstage : stage.unbegun = true)
    (h : c.tasks = before ++ (id, .coordination ns name stage) :: after) :
    c.queued = fun aggregator => (before ++ after).countP (fun e => e.2.awaits aggregator) +
      if (ns, name) = aggregator then 1 else 0 := by
  funext aggregator
  simp only [queued, count_of_tasks h, ControllerTask.awaits, hstage, Bool.true_and, beq_iff_eq]

theorem queued_of_running
    (h : c.tasks = before ++ (id, .coordination ns name .running) :: after) :
    c.queued = fun aggregator => (before ++ after).countP fun e => e.2.awaits aggregator := by
  funext aggregator
  exact count_of_tasks h _

end

/-- An aggregator is entered with its task, and struck out when the pass of the task begins.  Only
in a controller that does not run, a task ends before its pass. -/
theorem Moves.edits_queue (hmove : Moves c c') :
    Edits c.pending c.queued c'.pending c'.queued ∨
      c.running = false ∧ c'.pending = c.pending ∧ ∀ a, c'.queued a ≤ c.queued a := by
  cases hmove with
  | start => exact Or.inl .keep
  | launch r =>
    rw [Controller.launch, queued_spawn_reconcile]
    exact Or.inl .keep
  | enqueue ns name delay hnew =>
    rw [queued_spawn_coordination _ _ _ rfl]
    exact Or.inl (.enter hnew)
  | advance next htasks =>
    rw [queued_of_reconcile htasks, queued_of_reconcile rfl]
    exact Or.inl .keep
  | land htasks =>
    rw [queued_of_reconcile htasks]
    exact Or.inl .keep
  | doze htasks =>
    rw [queued_of_unbegun rfl htasks, queued_of_unbegun rfl rfl]
    exact Or.inl .keep
  | depart hstage htasks =>
    rw [queued_of_unbegun hstage htasks, queued_of_running rfl]
    exact Or.inl (.strike rfl)
  | finish htasks =>
    rw [queued_of_running htasks]
    exact Or.inl .keep
  | quit hstopped htasks =>
    rw [queued_of_unbegun rfl htasks]
    exact Or.inr ⟨hstopped, rfl, fun a => Nat.le_add_right _ _⟩

theorem Moves.running (hmove : Moves c c') (h : c.running = true) : c'.running = true := by
  cases hmove with
  | start => rfl
  | _ => exact h

theorem Moves.queueBooked (hmove : Moves c c') (h : c.QueueBooked) : c'.QueueBooked := by
  refine ⟨hmove.running h.running, ?_⟩
  rcases hmove.edits_queue with hedits | ⟨hstopped, -⟩
  · exact hedits.tallies h.tallies
  · exact absurd (h.running.symm.trans hstopped) (by decide)

/-- An aggregator that is queued has a task whose pass has not begun. -/
theorem QueueBooked.exists_task (h : c.QueueBooked) (hc : c.Numbered)
    (hmem : aggregator ∈ c.pending) : ∃ id stage, stage.unbegun = true ∧
      c.task? id = some (.coordination aggregator.1 aggregator.2 stage) := by
  have hone : c.queued aggregator = 1 := (h.tallies.mem_iff aggregator).mp hmem
  obtain ⟨⟨id, t⟩, he, hawaits⟩ := List.countP_pos_iff.mp (hone ▸ Nat.one_pos)
  cases t with
  | reconcile => cases hawaits
  | coordination ns name stage =>
    obtain ⟨hstage, hpair⟩ := Bool.and_eq_true_iff.mp hawaits
    obtain rfl := beq_iff_eq.mp hpair
    exact ⟨id, stage, hstage, hc.task?_of_mem he⟩

/-! ## 2. Triggers -/

/-- The aggregators whose coordination a step triggers. -/
def triggered (c : Controller) : Step → List (String × String)
  | .trigger ns name => [(ns, name)]
  | .sweep aggregators => aggregators.map fun r => (r.ns, r.name)
  | .scheduled id => match c.task? id with
    | some (.reconcile r (.scheduling result)) => (coordinationAfter r result).toList
    | _ => []
  | _ => []

theorem mem_pending_queue (c : Controller) (ns name : String) (delay : Int) :
    aggregator ∈ (c.queue ns name delay).pending ↔
      aggregator ∈ c.pending ∨ aggregator = (ns, name) := by
  rw [queue]
  split
  · rename_i h
    rw [List.contains_iff_mem] at h
    exact ⟨Or.inl, fun hor => hor.elim (fun hmem => hmem) fun heq => heq ▸ h⟩
  · rw [spawn, List.mem_append, List.mem_singleton]

theorem mem_pending_triggerAll (c : Controller) (aggregators : List Resource) :
    aggregator ∈ (c.triggerAll aggregators).pending ↔
      aggregator ∈ c.pending ∨ aggregator ∈ aggregators.map fun r => (r.ns, r.name) := by
  induction aggregators generalizing c with
  | nil => simp [triggerAll]
  | cons r rest ih =>
    refine (ih (c.trigger r.ns r.name)).trans ?_
    rw [trigger, mem_pending_queue, List.map_cons, List.mem_cons, or_assoc]

/-- What is triggered is queued. -/
theorem mem_pending_of_triggered (h : aggregator ∈ c.triggered s) :
    aggregator ∈ (c.step s).pending := by
  cases s with
  | trigger ns name =>
    exact (mem_pending_queue c ns name 0).mpr (Or.inr (List.mem_singleton.mp h))
  | sweep aggregators => exact (mem_pending_triggerAll c aggregators).mpr (Or.inr h)
  | scheduled id =>
    rw [triggered] at h
    split at h
    · rename_i r result ht
      obtain ⟨ns, name⟩ := aggregator
      have hafter : coordinationAfter r result = some (ns, name) := Option.mem_toList.mp h
      simp only [step, scheduled, ht, hafter]
      exact (mem_pending_queue _ ns name 0).mpr (Or.inr rfl)
    · cases h
  | _ => cases h

/-- A pass that ends with errors and a delay leaves its aggregator queued. -/
theorem mem_pending_of_coordinated {r : Coordination} {delay : Int}
    (ht : c.task? id = some (.coordination ns name .running)) (herrors : r.errors ≠ [])
    (hdelay : r.requeueAfter = some delay) (hne : delay ≠ 0) :
    (ns, name) ∈ (c.step (.coordinated id (.ok r))).pending := by
  have hretry : retryAfter (.ok r) = some delay := by
    simp [retryAfter, herrors, hdelay, hne]
  simp only [step, coordinated, ht, hretry]
  exact (mem_pending_queue _ ns name delay).mpr (Or.inr rfl)

/-! ## 3. A task until its turn -/

theorem task?_spawn (h : c.task? id = some t) (u : ControllerTask) :
    (c.spawn u).task? id = some t := by
  rw [task?] at h
  rw [task?, spawn, List.lookup_append, h]
  rfl

theorem task?_queue (h : c.task? id = some t) (ns name : String) (delay : Int) :
    (c.queue ns name delay).task? id = some t := by
  rw [queue]
  split
  · exact h
  · exact task?_spawn (c := { c with pending := _ }) h _

theorem task?_dispatch (h : c.task? id = some t) (batch : List Resource) :
    (c.dispatch batch).2.task? id = some t := by
  induction batch generalizing c with
  | nil => exact h
  | cons r rest ih =>
    rw [dispatch]
    split
    · exact ih h
    · exact ih (task?_spawn (c := { c with inFlight := _ }) h _)

theorem task?_triggerAll (h : c.task? id = some t) (aggregators : List Resource) :
    (c.triggerAll aggregators).task? id = some t := by
  induction aggregators generalizing c with
  | nil => exact h
  | cons r rest ih => exact ih (task?_queue h r.ns r.name 0)

theorem task?_setTask_of_ne {other : Nat} (hne : other ≠ id) (u : ControllerTask) :
    (c.setTask other u).task? id = c.task? id := by
  rw [task?, task?, setTask]
  induction c.tasks with
  | nil => rfl
  | cons e rest ih =>
    obtain ⟨n, v⟩ := e
    rw [List.map_cons]
    by_cases hn : n = other
    · have hid : (id == other) = false := beq_false_of_ne hne.symm
      simp only [hn, if_true, List.lookup_cons, hid, ih]
    · rw [if_neg hn, List.lookup_cons, List.lookup_cons, ih]

theorem task?_endTask_of_ne {other : Nat} (hne : other ≠ id) :
    (c.endTask other).task? id = c.task? id := by
  rw [task?, task?, endTask]
  induction c.tasks with
  | nil => rfl
  | cons e rest ih =>
    obtain ⟨n, v⟩ := e
    rw [List.filter_cons]
    by_cases hn : n = other
    · have hid : (id == other) = false := beq_false_of_ne hne.symm
      rw [if_neg (by simp [hn]), ih, List.lookup_cons, hn, hid]
    · rw [if_pos (bne_iff_ne.mpr hn), List.lookup_cons, List.lookup_cons, ih]

/-- The task that a step is about. -/
def Step.task? : Step → Option Nat
  | .begin id | .reconciled id _ | .scheduled id | .wake id | .coordinated id _ => some id
  | _ => none

/-- A step leaves every task alone but the one it is about. -/
theorem task?_step_of_ne (h : c.task? id = some t) (hs : s ≠ .stop) (hne : s.task? ≠ some id) :
    (c.step s).task? id = some t := by
  have hother {other : Nat} (ho : some other ≠ some id) : other ≠ id := fun heq => ho (heq ▸ rfl)
  cases s with
  | dispatch batch => exact task?_dispatch h batch
  | trigger ns name => exact task?_queue h ns name 0
  | sweep aggregators => exact task?_triggerAll h aggregators
  | start => exact h
  | stop => exact absurd rfl hs
  | begin other =>
    rw [step, begin]
    split
    · exact (task?_setTask_of_ne (hother hne) _).trans h
    · split
      · exact (task?_setTask_of_ne (hother hne) _).trans h
      · exact (task?_setTask_of_ne (hother hne) _).trans h
    · exact h
  | reconciled other outcome =>
    rw [step, reconciled]
    split
    · exact (task?_setTask_of_ne (hother hne) _).trans h
    · exact h
  | scheduled other =>
    rw [step, scheduled]
    split
    · rename_i r result _
      have hland : ((c.land r.key).endTask other).task? id = some t :=
        (task?_endTask_of_ne (hother hne)).trans h
      dsimp only
      split
      · exact task?_queue hland _ _ 0
      · exact hland
    · exact h
  | wake other =>
    rw [step, wake]
    split
    · split
      · exact (task?_setTask_of_ne (hother hne) _).trans h
      · exact (task?_endTask_of_ne (hother hne)).trans h
    · exact h
  | coordinated other outcome =>
    rw [step, coordinated]
    split
    · have hend : (c.endTask other).task? id = some t := (task?_endTask_of_ne (hother hne)).trans h
      dsimp only
      split
      · exact task?_queue hend _ _ _
      · exact hend
    · exact h

/-- A task waits until it begins. -/
theorem task?_step_of_waiting {delay : Int} (hs : s ≠ .stop) (hbegin : s ≠ .begin id)
    (h : c.task? id = some (.coordination ns name (.waiting delay))) :
    (c.step s).task? id = some (.coordination ns name (.waiting delay)) := by
  by_cases hid : s.task? = some id
  · cases s with
    | begin other => exact absurd (congrArg Step.begin (Option.some.inj hid)) hbegin
    | reconciled | scheduled | wake | coordinated =>
      cases hid
      simp only [step, reconciled, scheduled, wake, coordinated, h]
    | _ => cases hid
  · exact task?_step_of_ne h hs hid

/-- A task sleeps until it wakes. -/
theorem task?_step_of_asleep {delay : Int} (hs : s ≠ .stop) (hwake : s ≠ .wake id)
    (h : c.task? id = some (.coordination ns name (.asleep delay))) :
    (c.step s).task? id = some (.coordination ns name (.asleep delay)) := by
  by_cases hid : s.task? = some id
  · cases s with
    | wake other => exact absurd (congrArg Step.wake (Option.some.inj hid)) hwake
    | reconciled | scheduled | begin | coordinated =>
      cases hid
      simp only [step, reconciled, scheduled, begin, coordinated, h]
    | _ => cases hid
  · exact task?_step_of_ne h hs hid

theorem Numbered.task?_setTask (hc : c.Numbered) (h : c.task? id = some t) (u : ControllerTask) :
    (c.setTask id u).task? id = some u := by
  obtain ⟨before, after, htasks, hset, -⟩ := hc.split h
  have hnodup := hc.nodup
  rw [ids, htasks, List.map_append, List.map_cons, List.nodup_middle, List.nodup_cons] at hnodup
  refine List.lookup_eq_some_iff.mpr ⟨before, after, hset u, fun e he => bne_iff_ne.mpr ?_⟩
  exact fun heq => hnodup.1 (List.mem_append_left _ (List.mem_map.mpr ⟨e, he, heq.symm⟩))

theorem mem_of_task? (h : c.task? id = some t) : (id, t) ∈ c.tasks := by
  obtain ⟨before, after, htasks, -⟩ := List.lookup_eq_some_iff.mp h
  rw [htasks]
  exact List.mem_append_right _ List.mem_cons_self

/-! ## 4. Endless runs -/

/-- The controller after the first steps of an endless run. -/
def after (c : Controller) (σ : Nat → Step) : Nat → Controller
  | 0 => c
  | n + 1 => (c.after σ n).step (σ n)

/-- Every task that waits begins at some time, and every task that sleeps wakes. -/
structure Fair (c : Controller) (σ : Nat → Step) : Prop where
  begins : ∀ n id ns name delay,
    (c.after σ n).task? id = some (.coordination ns name (.waiting delay)) → ∃ m ≥ n, σ m = .begin id
  wakes : ∀ n id ns name delay,
    (c.after σ n).task? id = some (.coordination ns name (.asleep delay)) → ∃ m ≥ n, σ m = .wake id

/-- The step begins the pass of a task of the aggregator. -/
structure Departs (c : Controller) (s : Step) (aggregator : String × String) (id : Nat) :
    Prop where
  unbegun : ∃ stage : CoordinationStage, stage.unbegun = true ∧
    c.task? id = some (.coordination aggregator.1 aggregator.2 stage)
  running : (c.step s).task? id = some (.coordination aggregator.1 aggregator.2 .running)

variable {σ : Nat → Step} {n : Nat}

/-- What every step but one keeps holds until that one comes. -/
theorem holds_until {P : Controller → Prop} {goal : Step}
    (hkeeps : ∀ m, P (c.after σ m) → σ m ≠ goal → P (c.after σ (m + 1)))
    (h : P (c.after σ n)) (hgoal : ∃ m ≥ n, σ m = goal) :
    ∃ m ≥ n, σ m = goal ∧ P (c.after σ m) := by
  obtain ⟨m, hm, hgoal⟩ := hgoal
  obtain ⟨k, rfl⟩ := Nat.exists_eq_add_of_le hm
  induction k generalizing n with
  | zero => exact ⟨n, Nat.le_refl _, hgoal, h⟩
  | succ k ih =>
    by_cases hn : σ n = goal
    · exact ⟨n, Nat.le_refl _, hn, h⟩
    · obtain ⟨m, hm, hfound⟩ := ih (hkeeps n h hn) (by omega)
        (by rwa [Nat.add_right_comm, Nat.add_assoc])
      exact ⟨m, by omega, hfound⟩

/-- What holds of the books at all times. -/
theorem queueBooked_after (hσ : ∀ n, σ n ≠ .stop) (settings : Settings.Controller)
    (spawned : Nat) (n : Nat) :
    ((idle settings spawned).start.after σ n).Numbered ∧
      ((idle settings spawned).start.after σ n).QueueBooked := by
  induction n with
  | zero => exact ⟨Moves.start.numbered (numbered_idle settings spawned), queueBooked_start _ _⟩
  | succ n ih => exact ih.1.step_keeps Moves.queueBooked (hσ n) ih.2

/-- A task that waits or sleeps in a controller that runs begins its pass at some time. -/
theorem exists_departs (hσ : ∀ n, σ n ≠ .stop) (hfair : c.Fair σ)
    (hall : ∀ n, (c.after σ n).Numbered ∧ (c.after σ n).QueueBooked) {stage : CoordinationStage}
    (hstage : stage.unbegun = true)
    (h : (c.after σ n).task? id = some (.coordination aggregator.1 aggregator.2 stage)) :
    ∃ m ≥ n, (c.after σ m).Departs (σ m) aggregator id := by
  obtain ⟨ns, name⟩ := aggregator
  -- a sleeper wakes while the controller runs
  have hasleep {n : Nat} {delay : Int}
      (h : (c.after σ n).task? id = some (.coordination ns name (.asleep delay))) :
      ∃ m ≥ n, (c.after σ m).Departs (σ m) (ns, name) id := by
    obtain ⟨m, hm, hwake, hwaits⟩ := holds_until
      (P := fun d => d.task? id = some (.coordination ns name (.asleep delay)))
      (fun m hm hne => task?_step_of_asleep (hσ m) hne hm) h (hfair.wakes n id ns name delay h)
    refine ⟨m, hm, ⟨.asleep delay, rfl, hwaits⟩, ?_⟩
    have hunqueued : ((c.after σ m).unqueue (ns, name)).Numbered :=
      ⟨(hall m).1.nodup, (hall m).1.lt⟩
    simp only [hwake, step, wake, hwaits, (hall m).2.running, if_true]
    exact hunqueued.task?_setTask hwaits _
  cases stage with
  | running => cases hstage
  | asleep delay => exact hasleep h
  | waiting delay =>
    obtain ⟨m, hm, hbegin, hwaits⟩ := holds_until
      (P := fun d => d.task? id = some (.coordination ns name (.waiting delay)))
      (fun m hm hne => task?_step_of_waiting (hσ m) hne hm) h (hfair.begins n id ns name delay h)
    by_cases hdelay : delay = 0
    · refine ⟨m, hm, ⟨.waiting delay, rfl, hwaits⟩, ?_⟩
      have hunqueued : ((c.after σ m).unqueue (ns, name)).Numbered :=
        ⟨(hall m).1.nodup, (hall m).1.lt⟩
      simp only [hbegin, step, begin, hwaits, hdelay, if_true]
      exact hunqueued.task?_setTask hwaits _
    · have hsleeps : (c.after σ (m + 1)).task? id = some (.coordination ns name (.asleep delay)) := by
        simp only [after, hbegin, step, begin, hwaits, hdelay, if_false]
        exact (hall m).1.task?_setTask hwaits _
      obtain ⟨k, hk, hdeparts⟩ := hasleep hsleeps
      exact ⟨k, by omega, hdeparts⟩

/-- **Triggers are deduplicated, and none is lost.**  At all times of a run without a stop, an
aggregator is queued exactly if there is one task for it whose pass has not begun, and there are
never two; where tasks come to their turn, a pass of an aggregator that is triggered begins after
the trigger; and a pass that ends with errors and a delay leaves its aggregator queued. -/
theorem triggers_kept (settings : Settings.Controller) (spawned : Nat)
    (hσ : ∀ n, σ n ≠ .stop) :
    let c := (idle settings spawned).start.after σ
    (∀ n aggregator, (aggregator ∈ (c n).pending ↔ (c n).queued aggregator = 1) ∧
      (c n).queued aggregator ≤ 1) ∧
    ((idle settings spawned).start.Fair σ → ∀ n, ∀ aggregator ∈ (c n).triggered (σ n),
      ∃ m > n, ∃ id, (c m).Departs (σ m) aggregator id) ∧
    ∀ n id ns name r delay, (c n).task? id = some (.coordination ns name .running) →
      σ n = .coordinated id (.ok r) → r.errors ≠ [] → r.requeueAfter = some delay → delay ≠ 0 →
      (ns, name) ∈ (c (n + 1)).pending := by
  have hall := queueBooked_after hσ settings spawned
  refine ⟨fun n aggregator => ?_, fun hfair n aggregator htriggered => ?_, ?_⟩
  · exact ⟨(hall n).2.tallies.mem_iff aggregator, (hall n).2.tallies.le_one aggregator⟩
  · have hpending := mem_pending_of_triggered htriggered
    obtain ⟨id, stage, hstage, htask⟩ := (hall (n + 1)).2.exists_task (hall (n + 1)).1 hpending
    obtain ⟨m, hm, hdeparts⟩ := exists_departs hσ hfair hall hstage htask
    exact ⟨m, hm, id, hdeparts⟩
  · intro n id ns name r delay ht hn herrors hdelay hne
    rw [after, hn]
    exact mem_pending_of_coordinated ht herrors hdelay hne

/-- An aggregator is triggered, and once more while its pass runs. -/
def twice : Nat → Step
  | 0 => .trigger "default" "index"
  | 1 => .begin 0
  | 2 => .trigger "default" "index"
  | 3 => .begin 1
  | _ => .start

/-- The tasks of the two triggers, each of which begins in the step after. -/
theorem tasks_twice (n : Nat) : ((idle {} 0).start.after twice n).tasks =
    match n with
    | 0 => []
    | 1 => [(0, .coordination "default" "index" (.waiting 0))]
    | 2 => [(0, .coordination "default" "index" .running)]
    | 3 => [(0, .coordination "default" "index" .running),
        (1, .coordination "default" "index" (.waiting 0))]
    | _ => [(0, .coordination "default" "index" .running),
        (1, .coordination "default" "index" .running)] := by
  match n with
  | 0 | 1 | 2 | 3 => decide
  | n + 4 =>
    induction n with
    | zero => decide
    | succ n ih => exact ih

theorem fair_twice : (idle {} 0).start.Fair twice where
  begins n id ns name delay h := by
    have hmem := mem_of_task? h
    rw [tasks_twice] at hmem
    split at hmem
    · cases hmem
    · obtain ⟨rfl, -⟩ := Prod.mk.inj (List.mem_singleton.mp hmem)
      exact ⟨1, Nat.le_refl _, rfl⟩
    · simp at hmem
    · obtain ⟨rfl, -⟩ : id = 1 ∧ _ := by simpa using hmem
      exact ⟨3, Nat.le_refl _, rfl⟩
    · simp at hmem
  wakes n id ns name delay h := by
    have hmem := mem_of_task? h
    rw [tasks_twice] at hmem
    split at hmem <;> simp at hmem

/-- The second trigger has a pass of its own. -/
theorem triggers_kept_twice :
    (∀ n, twice n ≠ .stop) ∧ (idle {} 0).start.Fair twice ∧
      ∃ m > 2, ∃ id, ((idle {} 0).start.after twice m).Departs (twice m) ("default", "index") id := by
  have hsteps : ∀ n, twice n ≠ .stop := by
    intro n
    unfold twice
    split <;> exact Step.noConfusion
  obtain ⟨-, hkept, -⟩ := triggers_kept {} 0 hsteps
  exact ⟨hsteps, fair_twice, hkept fair_twice 2 ("default", "index") (by decide)⟩

end Controller

end Steward
