import Mathlib.Data.List.Nodup
import Mathlib.Logic.Relation
import Steward.Controller

/-!
# What a step does to the books

The controller keeps three books: the keys in flight, the aggregators that are queued, and the tasks
that have not ended.  Every step but stopping is a sequence of the few moves below (`step_moves`),
each of which changes one task and at most one line of the other two books.  What holds of the books
along a run is proved move by move, and no later proof opens a step.
-/

namespace Steward

open Relation (ReflTransGen)

/-! ## 1. Tasks -/

/-- The pass of the coordination has not begun. -/
def CoordinationStage.unbegun : CoordinationStage → Bool
  | .waiting _ | .asleep _ => true
  | .running => false

namespace Controller

/-- The numbers of the tasks. -/
def ids (c : Controller) : List Nat := c.tasks.map Prod.fst

/-- The tasks have numbers of their own, and the next number is new. -/
structure Numbered (c : Controller) : Prop where
  nodup : c.ids.Nodup
  lt : ∀ n ∈ c.ids, n < c.spawned

variable {c c' : Controller} {id : Nat} {t : ControllerTask}

/-- The number of tasks that are chosen. -/
def count (c : Controller) (p : ControllerTask → Bool) : Nat := c.tasks.countP fun e => p e.2

theorem count_spawn (c : Controller) (t : ControllerTask) (p : ControllerTask → Bool) :
    (c.spawn t).count p = c.count p + if p t then 1 else 0 := by
  simp only [count, spawn, List.countP_append, List.countP_singleton]

/-- One task counts for itself, all others count as before. -/
theorem count_of_tasks {before after : List (Nat × ControllerTask)}
    (h : c.tasks = before ++ (id, t) :: after) (p : ControllerTask → Bool) :
    c.count p = (before ++ after).countP (fun e => p e.2) + if p t then 1 else 0 := by
  simp only [count, h, List.countP_append, List.countP_cons, Nat.add_assoc]

/-- A task stands in one place, where it is replaced and where it is taken out. -/
theorem Numbered.split (h : c.Numbered) (ht : c.task? id = some t) :
    ∃ before after, c.tasks = before ++ (id, t) :: after ∧
      (∀ next, (c.setTask id next).tasks = before ++ (id, next) :: after) ∧
      (c.endTask id).tasks = before ++ after := by
  obtain ⟨before, after, htasks, -⟩ := List.lookup_eq_some_iff.mp ht
  have hnodup := h.nodup
  rw [ids, htasks, List.map_append, List.map_cons, List.nodup_middle, List.nodup_cons,
    List.mem_append, not_or] at hnodup
  obtain ⟨⟨hbefore, hafter⟩, -⟩ := hnodup
  have hne {es : List (Nat × ControllerTask)} (hes : id ∉ es.map Prod.fst) :
      ∀ e ∈ es, e.1 ≠ id := fun e he heq => hes (List.mem_map.mpr ⟨e, he, heq⟩)
  have hset (es : List (Nat × ControllerTask)) (hes : id ∉ es.map Prod.fst)
      (next : ControllerTask) : (es.map fun e => if e.1 = id then (id, next) else e) = es := by
    rw [List.map_congr_left fun e he => if_neg (hne hes e he), List.map_id']
  have hend (es : List (Nat × ControllerTask)) (hes : id ∉ es.map Prod.fst) :
      (es.filter fun e => e.1 != id) = es :=
    List.filter_eq_self.mpr fun e he => bne_iff_ne.mpr (hne hes e he)
  refine ⟨before, after, htasks, fun next => ?_, ?_⟩
  · simp only [setTask, htasks, List.map_append, List.map_cons, if_true, hset before hbefore,
      hset after hafter]
  · simp only [endTask, htasks, List.filter_append, List.filter_cons, bne_self_eq_false,
      Bool.false_eq_true, if_false, hend before hbefore, hend after hafter]

/-! ## 2. Books -/

section

variable {κ : Type} [BEq κ] [LawfulBEq κ]

/-- The book has a line for exactly what is counted, and nothing is counted twice. -/
def Tallies (book : List κ) (tally : κ → Nat) : Prop := ∀ k, tally k = if k ∈ book then 1 else 0

/-- The book has a line for everything that is counted, and nothing is counted twice. -/
def Covers (book : List κ) (tally : κ → Nat) : Prop := ∀ k, tally k ≤ 1 ∧ (tally k = 1 → k ∈ book)

/-- The book has a line for something that is not there. -/
def Stale (book : List κ) (tally : κ → Nat) (k : κ) : Prop := k ∈ book ∧ tally k = 0

variable {book book' : List κ} {tally tally' : κ → Nat} {k : κ}

theorem Tallies.mem_iff (h : Tallies book tally) (k : κ) : k ∈ book ↔ tally k = 1 := by
  rw [h k]
  split <;> simp_all

theorem Tallies.le_one (h : Tallies book tally) (k : κ) : tally k ≤ 1 := by
  rw [h k]
  split <;> decide

omit [BEq κ] [LawfulBEq κ] in
theorem covers_of_none (h : ∀ k, tally k = 0) : Covers book tally := fun k => by simp [h k]

variable [DecidableEq κ]

/-- What can happen to a book and to the numbers of what it is about: nothing, or one line is
written as one more is counted, or one line is struck out as one less is. -/
inductive Edits (book : List κ) (tally : κ → Nat) : List κ → (κ → Nat) → Prop
  | keep : Edits book tally book tally
  | enter {k : κ} (h : k ∉ book) :
      Edits book tally (book ++ [k]) fun l => tally l + if k = l then 1 else 0
  | strike {k : κ} {rest : κ → Nat} (h : tally = fun l => rest l + if k = l then 1 else 0) :
      Edits book tally (book.filter (· != k)) rest

/-- A book that is right stays right. -/
theorem Edits.tallies (he : Edits book tally book' tally') (h : Tallies book tally) :
    Tallies book' tally' := by
  cases he with
  | keep => exact h
  | @enter k hk =>
    intro l
    by_cases heq : k = l
    · subst heq
      simp [h k, hk]
    · simp [h l, heq, Ne.symm heq]
  | @strike k _ hrest =>
    intro l
    have hl := h l
    rw [hrest] at hl
    by_cases heq : k = l
    · simp only [heq, if_true] at hl ⊢
      rw [if_neg (by simp)]
      split at hl <;> omega
    · simpa [heq, Ne.symm heq] using hl

/-- A book that covers what is counted goes on to cover it. -/
theorem Edits.covers (he : Edits book tally book' tally') (h : Covers book tally) :
    Covers book' tally' := by
  cases he with
  | keep => exact h
  | @enter k hk =>
    intro l
    have hl := h l
    by_cases heq : k = l
    · subst heq
      have hzero : tally k = 0 := by
        by_contra hne
        exact hk (hl.2 (by omega))
      simp [hzero]
    · simpa [heq, Ne.symm heq] using hl
  | @strike k _ hrest =>
    intro l
    have hl := h l
    rw [hrest] at hl
    by_cases heq : k = l
    · simp only [heq, if_true] at hl ⊢
      omega
    · simpa [heq, Ne.symm heq] using hl

/-- A stale line is there for good: what it is about is not entered again, and so not struck
out. -/
theorem Edits.stale (he : Edits book tally book' tally') (h : Stale book tally k) :
    Stale book' tally' k := by
  obtain ⟨hmem, hzero⟩ := h
  cases he with
  | keep => exact ⟨hmem, hzero⟩
  | @enter l hl =>
    have hne : l ≠ k := fun heq => hl (heq ▸ hmem)
    exact ⟨List.mem_append_left _ hmem, by simp [hzero, hne]⟩
  | @strike l _ hrest =>
    have hk : (tally' k + if l = k then 1 else 0) = 0 := by
      rw [hrest] at hzero
      exact hzero
    have hne : k ≠ l := by
      rintro rfl
      simp at hk
    exact ⟨List.mem_filter.mpr ⟨hmem, bne_iff_ne.mpr hne⟩, (Nat.add_eq_zero_iff.mp hk).1⟩

end

/-! ## 3. Moves -/

/-- The moves that steps are made of. -/
inductive Moves (c : Controller) : Controller → Prop
  | start : Moves c c.start
  /-- A resource that is not in flight gets a task. -/
  | launch (r : Resource) (h : r.key ∉ c.inFlight) : Moves c (c.launch r)
  /-- A reconciliation task goes on. -/
  | advance {before after : List (Nat × ControllerTask)} {id : Nat} {r : Resource}
      {stage : ReconcileStage} (next : ReconcileStage)
      (h : c.tasks = before ++ (id, .reconcile r stage) :: after) :
      Moves c { c with tasks := before ++ (id, .reconcile r next) :: after }
  /-- A reconciliation task ends, and its resource is no longer in flight. -/
  | land {before after : List (Nat × ControllerTask)} {id : Nat} {r : Resource}
      {stage : ReconcileStage} (h : c.tasks = before ++ (id, .reconcile r stage) :: after) :
      Moves c { c.land r.key with tasks := before ++ after }
  /-- An aggregator that is not queued gets a task. -/
  | enqueue (ns name : String) (delay : Int) (h : (ns, name) ∉ c.pending) :
      Moves c ({ c with pending := c.pending ++ [(ns, name)] }.spawn
        (.coordination ns name (.waiting delay)))
  /-- A delayed coordination falls asleep. -/
  | doze {before after : List (Nat × ControllerTask)} {id : Nat} {ns name : String} {delay : Int}
      (h : c.tasks = before ++ (id, .coordination ns name (.waiting delay)) :: after) :
      Moves c { c with tasks := before ++ (id, .coordination ns name (.asleep delay)) :: after }
  /-- A coordination begins its pass, and its aggregator is no longer queued. -/
  | depart {before after : List (Nat × ControllerTask)} {id : Nat} {ns name : String}
      {stage : CoordinationStage} (hstage : stage.unbegun = true)
      (h : c.tasks = before ++ (id, .coordination ns name stage) :: after) :
      Moves c { c.unqueue (ns, name) with
        tasks := before ++ (id, .coordination ns name .running) :: after }
  /-- The pass of a coordination is over. -/
  | finish {before after : List (Nat × ControllerTask)} {id : Nat} {ns name : String}
      (h : c.tasks = before ++ (id, .coordination ns name .running) :: after) :
      Moves c { c with tasks := before ++ after }
  /-- A coordination wakes in a controller that does not run. -/
  | quit {before after : List (Nat × ControllerTask)} {id : Nat} {ns name : String} {delay : Int}
      (hrunning : c.running = false)
      (h : c.tasks = before ++ (id, .coordination ns name (.asleep delay)) :: after) :
      Moves c { c with tasks := before ++ after }

theorem Numbered.task?_of_mem (h : c.Numbered) (hmem : (id, t) ∈ c.tasks) :
    c.task? id = some t := by
  obtain ⟨before, after, htasks⟩ := List.append_of_mem hmem
  have hnodup := h.nodup
  rw [ids, htasks, List.map_append, List.map_cons, List.nodup_middle, List.nodup_cons,
    List.mem_append, not_or] at hnodup
  refine List.lookup_eq_some_iff.mpr ⟨before, after, htasks, fun e he => bne_iff_ne.mpr ?_⟩
  exact fun heq => hnodup.1.1 (List.mem_map.mpr ⟨e, he, heq.symm⟩)

theorem Numbered.spawn (h : c.Numbered) (t : ControllerTask) : (c.spawn t).Numbered := by
  have hids : (c.spawn t).ids = c.ids ++ [c.spawned] := List.map_append
  constructor
  · rw [hids, List.nodup_append]
    refine ⟨h.nodup, List.nodup_singleton _, fun n hn m hm => ?_⟩
    rw [List.mem_singleton.mp hm]
    exact Nat.ne_of_lt (h.lt n hn)
  · intro n hn
    rw [hids, List.mem_append, List.mem_singleton] at hn
    rcases hn with hn | rfl
    · exact Nat.lt_succ_of_lt (h.lt n hn)
    · exact Nat.lt_succ_self _

/-- Moves keep the numbers of the tasks apart. -/
theorem Moves.numbered (hmove : Moves c c') (h : c.Numbered) : c'.Numbered := by
  obtain ⟨hnodup, hlt⟩ := h
  cases hmove with
  | start => exact ⟨hnodup, hlt⟩
  | launch r =>
    exact Numbered.spawn (c := { c with inFlight := c.inFlight ++ [r.key] }) ⟨hnodup, hlt⟩ _
  | enqueue ns name delay =>
    exact Numbered.spawn (c := { c with pending := c.pending ++ [(ns, name)] }) ⟨hnodup, hlt⟩ _
  | advance next h | doze h | depart _ h =>
    -- the numbers are what they were
    rw [ids, h, List.map_append] at hnodup hlt
    constructor
    · rw [ids, List.map_append]
      exact hnodup
    · rw [ids, List.map_append]
      exact hlt
  | land h | finish h | quit _ h =>
    -- one number is gone
    rw [ids, h, List.map_append, List.map_cons] at hnodup hlt
    constructor
    · rw [ids, List.map_append]
      exact hnodup.sublist ((List.sublist_cons_self _ _).append_left _)
    · rw [ids, List.map_append]
      exact fun n hn => hlt n (((List.sublist_cons_self _ _).append_left _).subset hn)

/-! ## 4. Steps -/

theorem dispatch_moves (c : Controller) (batch : List Resource) :
    ReflTransGen Moves c (c.dispatch batch).2 := by
  induction batch generalizing c with
  | nil => exact .refl
  | cons r rest ih =>
    rw [dispatch]
    split
    · exact ih c
    · rename_i hr
      exact .head (.launch r fun h => hr (List.contains_iff_mem.mpr h)) (ih (c.launch r))

theorem queue_moves (c : Controller) (ns name : String) (delay : Int) :
    ReflTransGen Moves c (c.queue ns name delay) := by
  rw [queue]
  split
  · exact .refl
  · rename_i h
    exact .single (.enqueue ns name delay fun hmem => h (List.contains_iff_mem.mpr hmem))

theorem triggerAll_moves (c : Controller) (aggregators : List Resource) :
    ReflTransGen Moves c (c.triggerAll aggregators) := by
  induction aggregators generalizing c with
  | nil => exact .refl
  | cons r rest ih => exact (c.queue_moves r.ns r.name 0).trans (ih (c.trigger r.ns r.name))

/-- A controller of which all but the tasks is known. -/
theorem eq_of_tasks {d : Controller} {tasks : List (Nat × ControllerTask)} (h : d.tasks = tasks) :
    d = { d with tasks } := by
  rw [← h]

theorem begin_moves (h : c.Numbered) (id : Nat) : ReflTransGen Moves c (c.begin id) := by
  rw [begin]
  split
  · rename_i r ht
    obtain ⟨before, after, htasks, hset, -⟩ := h.split ht
    rw [eq_of_tasks (hset _)]
    exact .single (.advance .running htasks)
  · rename_i ns name delay ht
    obtain ⟨before, after, htasks, hset, -⟩ := h.split ht
    split
    · rw [eq_of_tasks (d := (c.unqueue (ns, name)).setTask id _) (hset _)]
      exact .single (.depart rfl htasks)
    · rw [eq_of_tasks (hset _)]
      exact .single (.doze htasks)
  · exact .refl

theorem reconciled_moves (h : c.Numbered) (id : Nat) (outcome : Except Failure Reconciliation) :
    ReflTransGen Moves c (c.reconciled id outcome) := by
  rw [reconciled]
  split
  · rename_i r ht
    obtain ⟨before, after, htasks, hset, -⟩ := h.split ht
    rw [eq_of_tasks (hset _)]
    exact .single (.advance (.scheduling (resultOf c.settings outcome)) htasks)
  · exact .refl

theorem scheduled_moves (h : c.Numbered) (id : Nat) : ReflTransGen Moves c (c.scheduled id) := by
  rw [scheduled]
  split
  · rename_i r result ht
    obtain ⟨before, after, htasks, -, hend⟩ := h.split ht
    have hland : Moves c ((c.land r.key).endTask id) := by
      rw [eq_of_tasks (d := (c.land r.key).endTask id) hend]
      exact .land htasks
    dsimp only
    split
    · exact .head hland (queue_moves _ _ _ 0)
    · exact .single hland
  · exact .refl

theorem wake_moves (h : c.Numbered) (id : Nat) : ReflTransGen Moves c (c.wake id) := by
  rw [wake]
  split
  · rename_i ns name delay ht
    obtain ⟨before, after, htasks, hset, hend⟩ := h.split ht
    split
    · rw [eq_of_tasks (d := (c.unqueue (ns, name)).setTask id _) (hset _)]
      exact .single (.depart rfl htasks)
    · rename_i hrunning
      rw [eq_of_tasks hend]
      exact .single (.quit (Bool.eq_false_iff.mpr hrunning) htasks)
  · exact .refl

theorem coordinated_moves (h : c.Numbered) (id : Nat) (outcome : Except Failure Coordination) :
    ReflTransGen Moves c (c.coordinated id outcome) := by
  rw [coordinated]
  split
  · rename_i ns name ht
    obtain ⟨before, after, htasks, -, hend⟩ := h.split ht
    have hfinish : Moves c (c.endTask id) := by
      rw [eq_of_tasks hend]
      exact .finish htasks
    dsimp only
    split
    · exact .head hfinish (queue_moves _ _ _ _)
    · exact .single hfinish
  · exact .refl

/-- **Every step but stopping is made of moves.** -/
theorem step_moves (h : c.Numbered) {s : Step} (hs : s ≠ .stop) :
    ReflTransGen Moves c (c.step s) := by
  cases s with
  | dispatch batch => exact c.dispatch_moves batch
  | trigger ns name => exact c.queue_moves ns name 0
  | sweep aggregators => exact c.triggerAll_moves aggregators
  | begin id => exact begin_moves h id
  | reconciled id outcome => exact reconciled_moves h id outcome
  | scheduled id => exact scheduled_moves h id
  | wake id => exact wake_moves h id
  | coordinated id outcome => exact coordinated_moves h id outcome
  | start => exact .single .start
  | stop => exact absurd rfl hs

/-- What every move keeps, a step that is no stop keeps. -/
theorem Numbered.step_keeps {P : Controller → Prop}
    (hP : ∀ {a b : Controller}, Moves a b → P a → P b) {s : Step} (hs : s ≠ .stop)
    (hc : c.Numbered) (h : P c) : (c.step s).Numbered ∧ P (c.step s) := by
  have hmoves := step_moves hc hs
  generalize c.step s = c' at hmoves ⊢
  induction hmoves with
  | refl => exact ⟨hc, h⟩
  | tail _ hmove ih => exact ⟨hmove.numbered ih.1, hP hmove ih.2⟩

/-! ## 5. Runs -/

/-- Take steps one after the other. -/
def run (c : Controller) (steps : List Step) : Controller := steps.foldl step c

/-- **What every move keeps, a run without a stop keeps.** -/
theorem Numbered.run_keeps {P : Controller → Prop}
    (hP : ∀ {a b : Controller}, Moves a b → P a → P b) {steps : List Step}
    (hsteps : ∀ s ∈ steps, s ≠ .stop) (hc : c.Numbered) (h : P c) :
    (c.run steps).Numbered ∧ P (c.run steps) := by
  induction steps generalizing c with
  | nil => exact ⟨hc, h⟩
  | cons s rest ih =>
    obtain ⟨hc', h'⟩ := hc.step_keeps hP (hsteps s List.mem_cons_self) h
    exact ih (fun s hs => hsteps s (List.mem_cons_of_mem _ hs)) hc' h'

/-- A controller without tasks that does not run; `spawned` tasks were there before. -/
def idle (settings : Settings.Controller) (spawned : Nat) : Controller := { settings, spawned }

theorem numbered_idle (settings : Settings.Controller) (spawned : Nat) :
    (idle settings spawned).Numbered :=
  ⟨List.nodup_nil, fun _ hn => nomatch hn⟩

end Controller

end Steward
