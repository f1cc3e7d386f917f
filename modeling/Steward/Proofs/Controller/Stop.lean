import Steward.Proofs.Controller.Flights
import Steward.Proofs.Controller.Queue

/-!
# What a stop leaves behind

`Controller.stop` drops all tasks, and only a reconciliation that has begun gets to strike its key
out of the book of flights.  So the keys of tasks that have not begun stay in flight, and
aggregators that are queued stay queued: the controller can be started anew only if all its tasks
had begun, and what is left behind otherwise is in the way for good (`stop_leaves`).
-/

namespace Steward

/-- The task has begun its pass. -/
def ControllerTask.begun : ControllerTask → Bool
  | .reconcile _ .waiting => false
  | .reconcile _ _ => true
  | .coordination _ _ stage => !stage.unbegun

namespace Controller

variable {c : Controller} {key : String} {aggregator : String × String}

/-! ## 1. The books after a stop -/

/-- Tasks that are dropped strike their keys out, if they have begun. -/
theorem foldl_drop (c : Controller) (tasks : List (Nat × ControllerTask)) :
    tasks.foldl (fun c e => c.drop e.2) c = { c with
      inFlight := c.inFlight.filter fun key =>
        tasks.all fun e => !(e.2.begun && e.2.reconciles key) } := by
  induction tasks generalizing c with
  | nil => simp
  | cons e rest ih =>
    rw [List.foldl_cons, ih]
    obtain ⟨id, t⟩ := e
    cases t with
    | reconcile r stage =>
      cases stage with
      | waiting => simp [drop, ControllerTask.begun]
      | running | scheduling =>
        simp [drop, land, ControllerTask.begun, ControllerTask.reconciles, List.filter_filter,
          Bool.and_comm, bne, Bool.beq_eq_decide_eq, eq_comm]
    | coordination ns name stage =>
      simp [drop, ControllerTask.reconciles]

theorem mem_inFlight_stop : key ∈ c.stop.inFlight ↔
    key ∈ c.inFlight ∧ ∀ e ∈ c.tasks, e.2.begun = true → e.2.reconciles key = false := by
  simp only [stop, foldl_drop, List.mem_filter, List.all_eq_true]
  refine and_congr_right fun _ => forall₂_congr fun e _ => ?_
  cases e.2.begun <;> simp

theorem pending_stop (c : Controller) : c.stop.pending = c.pending := by
  rw [stop, foldl_drop]

/-- Whatever has a task is in its book, and has no second task; a book may have stale lines. -/
structure Covered (c : Controller) : Prop where
  flights : Covers c.inFlight c.flights
  queue : Covers c.pending c.queued

/-- Nothing is there for the key, and still it is in flight. -/
def Grounded (c : Controller) (key : String) : Prop := Stale c.inFlight c.flights key

/-- Nothing is there for the aggregator, and still it is queued. -/
def Stuck (c : Controller) (aggregator : String × String) : Prop :=
  Stale c.pending c.queued aggregator

theorem covered_idle (settings : Settings.Controller) (spawned : Nat) :
    (idle settings spawned).Covered :=
  ⟨covers_of_none fun _ => rfl, covers_of_none fun _ => rfl⟩

theorem covered_stop (c : Controller) : c.stop.Covered :=
  ⟨covers_of_none fun _ => rfl, covers_of_none fun _ => rfl⟩

theorem Moves.covered {c' : Controller} (hmove : Moves c c') (h : c.Covered) : c'.Covered := by
  refine ⟨hmove.edits_flights.covers h.flights, ?_⟩
  rcases hmove.edits_queue with hedits | ⟨-, hpending, hle⟩
  · exact hedits.covers h.queue
  · intro aggregator
    obtain ⟨hone, hmem⟩ := h.queue aggregator
    have hle := hle aggregator
    rw [hpending]
    exact ⟨by omega, fun hstill => hmem (by omega)⟩

/-- In flight stay the keys of tasks that have not begun, and those without a task. -/
theorem Covered.mem_inFlight_stop (h : c.Covered) : key ∈ c.stop.inFlight ↔
    c.Grounded key ∨ ∃ e ∈ c.tasks, e.2.begun = false ∧ e.2.reconciles key = true := by
  rw [Controller.mem_inFlight_stop]
  constructor
  · rintro ⟨hmem, hbegun⟩
    rcases Nat.eq_zero_or_pos (c.flights key) with hnone | hpos
    · exact Or.inl ⟨hmem, hnone⟩
    · obtain ⟨e, he, hkey⟩ := List.countP_pos_iff.mp hpos
      refine Or.inr ⟨e, he, Bool.eq_false_iff.mpr fun hb => ?_, hkey⟩
      exact Bool.false_ne_true ((hbegun e he hb).symm.trans hkey)
  · rintro (⟨hmem, hnone⟩ | ⟨e, he, hwaiting, hkey⟩)
    · exact ⟨hmem, fun e he _ => Bool.eq_false_iff.mpr (List.countP_eq_zero.mp hnone e he)⟩
    · have hone : c.flights key = 1 :=
        Nat.le_antisymm (h.flights key).1 (List.countP_pos_iff.mpr ⟨e, he, hkey⟩)
      refine ⟨(h.flights key).2 hone, fun other hother hbegun => ?_⟩
      refine Bool.eq_false_iff.mpr fun hsame => ?_
      -- the other task would be a second one for the key
      obtain ⟨only, honly⟩ :=
        List.length_eq_one_iff.mp (List.countP_eq_length_filter.symm.trans hone)
      have heq {e : Nat × ControllerTask} (he : e ∈ c.tasks) (hkey : e.2.reconciles key = true) :
          e = only := List.mem_singleton.mp (honly ▸ List.mem_filter.mpr ⟨he, hkey⟩)
      rw [heq he hkey, ← heq hother hsame, hbegun] at hwaiting
      cases hwaiting

/-- Queued stay the aggregators of tasks that have not begun, and those without a task. -/
theorem Covered.mem_pending_stop (h : c.Covered) : aggregator ∈ c.stop.pending ↔
    c.Stuck aggregator ∨ ∃ e ∈ c.tasks, e.2.awaits aggregator = true := by
  rw [pending_stop]
  constructor
  · intro hmem
    rcases Nat.eq_zero_or_pos (c.queued aggregator) with hnone | hpos
    · exact Or.inl ⟨hmem, hnone⟩
    · exact Or.inr (List.countP_pos_iff.mp hpos)
  · rintro (⟨hmem, -⟩ | hexists)
    · exact hmem
    · exact (h.queue aggregator).2
        (Nat.le_antisymm (h.queue aggregator).1 (List.countP_pos_iff.mpr hexists))

/-! ## 2. Starting anew -/

/-- The books are empty, and once the controller is started every resource that is due is dispatched
and every trigger has a task. -/
structure Clear (c : Controller) : Prop where
  inFlight : c.inFlight = []
  pending : c.pending = []
  tasks : c.tasks = []
  dispatches : ∀ batch, ∃ launched, c.start.Launches batch launched ∧
    ∀ r ∈ batch, r.key ∈ launched.map Resource.key
  triggers : ∀ ns name, (c.start.trigger ns name).queued (ns, name) = 1

theorem clear_of_empty (hinFlight : c.inFlight = []) (hpending : c.pending = [])
    (htasks : c.tasks = []) : c.Clear where
  inFlight := hinFlight
  pending := hpending
  tasks := htasks
  dispatches batch := by
    obtain ⟨launched, h⟩ := dispatch_launches c.start batch
    refine ⟨launched, h, fun r hr => (h.keys r.key).mpr ⟨List.mem_map_of_mem hr, ?_⟩⟩
    rw [start, hinFlight]
    exact List.not_mem_nil
  triggers ns name := by
    simp [trigger, queue, start, spawn, queued, count, hpending, htasks, ControllerTask.awaits,
      CoordinationStage.unbegun]

/-- A task that has not begun stands in one of the books. -/
theorem exists_line_of_not_begun {t : ControllerTask} (h : t.begun = false) :
    (∃ key, t.reconciles key = true) ∨ ∃ aggregator, t.awaits aggregator = true := by
  cases t with
  | reconcile r stage => exact Or.inl ⟨r.key, beq_self_eq_true _⟩
  | coordination ns name stage =>
    refine Or.inr ⟨(ns, name), ?_⟩
    rw [ControllerTask.begun, Bool.not_eq_false'] at h
    simp [ControllerTask.awaits, h]

theorem begun_of_awaits {t : ControllerTask} (h : t.awaits aggregator = true) :
    t.begun = false := by
  cases t with
  | reconcile => cases h
  | coordination ns name stage =>
    rw [ControllerTask.begun, (Bool.and_eq_true_iff.mp h).1]
    rfl

/-- The books are empty after a stop exactly if all tasks had begun and no line was stale. -/
theorem Covered.clear_iff (h : c.Covered) : c.stop.Clear ↔ (∀ e ∈ c.tasks, e.2.begun = true) ∧
    (∀ key, ¬ c.Grounded key) ∧ ∀ aggregator, ¬ c.Stuck aggregator := by
  constructor
  · intro hclear
    have hflights (key : String) (hmem : key ∈ c.stop.inFlight) : False := by
      rw [hclear.inFlight] at hmem
      cases hmem
    have hqueue (aggregator : String × String) (hmem : aggregator ∈ c.stop.pending) : False := by
      rw [hclear.pending] at hmem
      cases hmem
    refine ⟨fun e he => ?_, fun key hgrounded => ?_, fun aggregator hstuck => ?_⟩
    · by_contra hwaiting
      have hnot : e.2.begun = false := Bool.eq_false_iff.mpr hwaiting
      rcases exists_line_of_not_begun hnot with ⟨key, hkey⟩ | ⟨aggregator, hawaits⟩
      · exact hflights key (h.mem_inFlight_stop.mpr (Or.inr ⟨e, he, hnot, hkey⟩))
      · exact hqueue aggregator (h.mem_pending_stop.mpr (Or.inr ⟨e, he, hawaits⟩))
    · exact hflights key (h.mem_inFlight_stop.mpr (Or.inl hgrounded))
    · exact hqueue aggregator (h.mem_pending_stop.mpr (Or.inl hstuck))
  · rintro ⟨hbegun, hgrounded, hstuck⟩
    refine clear_of_empty ?_ ?_ rfl
    · refine List.eq_nil_iff_forall_not_mem.mpr fun key hmem => ?_
      rcases h.mem_inFlight_stop.mp hmem with hkey | ⟨e, he, hnot, -⟩
      · exact hgrounded key hkey
      · exact Bool.false_ne_true (hnot.symm.trans (hbegun e he))
    · refine List.eq_nil_iff_forall_not_mem.mpr fun aggregator hmem => ?_
      rcases h.mem_pending_stop.mp hmem with hline | ⟨e, he, hawaits⟩
      · exact hstuck aggregator hline
      · exact Bool.false_ne_true ((begun_of_awaits hawaits).symm.trans (hbegun e he))

/-! ## 3. What is left behind -/

theorem Grounded.stop (h : c.Grounded key) : c.stop.Grounded key := by
  refine ⟨mem_inFlight_stop.mpr ⟨h.1, fun e he _ => ?_⟩, rfl⟩
  exact Bool.eq_false_iff.mpr (List.countP_eq_zero.mp h.2 e he)

theorem Stuck.stop (h : c.Stuck aggregator) : c.stop.Stuck aggregator :=
  ⟨pending_stop c ▸ h.1, rfl⟩

theorem Moves.stuck {c' : Controller} (hmove : Moves c c') (h : c.Stuck aggregator) :
    c'.Stuck aggregator := by
  rcases hmove.edits_queue with hedits | ⟨-, hpending, hle⟩
  · exact hedits.stale h
  · exact ⟨hpending ▸ h.1, Nat.le_zero.mp (h.2 ▸ hle aggregator)⟩

/-- What every move and every stop keeps, any run keeps. -/
theorem Numbered.always {P : Controller → Prop}
    (hmoves : ∀ {a b : Controller}, Moves a b → P a → P b)
    (hstop : ∀ {a : Controller}, P a → P a.stop)
    (steps : List Step) (hc : c.Numbered) (h : P c) : P (c.run steps) := by
  induction steps generalizing c with
  | nil => exact h
  | cons s rest ih =>
    by_cases hs : s = .stop
    · subst hs
      exact ih ⟨List.nodup_nil, fun _ hn => nomatch hn⟩ (hstop h)
    · obtain ⟨hc', h'⟩ := hc.step_keeps hmoves hs h
      exact ih hc' h'

/-- **What a stop leaves behind.**  After any run and a stop the controller can be started anew
exactly if all tasks had begun and nothing had been left behind before.  Otherwise the keys and
aggregators of the tasks that had not begun are left behind too, and whatever happens later, no task
is ever started for one of them again. -/
theorem stop_leaves (settings : Settings.Controller) (spawned : Nat) (steps : List Step) :
    let c := (idle settings spawned).run steps
    (c.stop.Clear ↔ (∀ e ∈ c.tasks, e.2.begun = true) ∧
      (∀ key, ¬ c.Grounded key) ∧ ∀ aggregator, ¬ c.Stuck aggregator) ∧
    (∀ key, (key ∈ c.stop.inFlight ↔ c.Grounded key ∨
        ∃ e ∈ c.tasks, e.2.begun = false ∧ e.2.reconciles key = true) ∧
      (key ∈ c.stop.inFlight → ∀ later, (c.stop.run later).flights key = 0)) ∧
    ∀ aggregator, (aggregator ∈ c.stop.pending ↔ c.Stuck aggregator ∨
        ∃ e ∈ c.tasks, e.2.awaits aggregator = true) ∧
      (aggregator ∈ c.stop.pending → ∀ later, (c.stop.run later).queued aggregator = 0) := by
  intro c
  have hcovered : c.Covered := (numbered_idle settings spawned).always Moves.covered
    (fun _ => covered_stop _) steps (covered_idle settings spawned)
  have hstopped : c.stop.Numbered := ⟨List.nodup_nil, fun _ hn => nomatch hn⟩
  refine ⟨hcovered.clear_iff, fun key => ?_, fun aggregator => ?_⟩
  · refine ⟨hcovered.mem_inFlight_stop, fun hmem later => ?_⟩
    exact (hstopped.always (P := (·.Grounded key)) (fun hmove => hmove.edits_flights.stale)
      Grounded.stop later ⟨hmem, rfl⟩).2
  · refine ⟨hcovered.mem_pending_stop, fun hmem later => ?_⟩
    exact (hstopped.always (P := (·.Stuck aggregator)) Moves.stuck Stuck.stop later ⟨hmem, rfl⟩).2

/-- The shows are dispatched, one aggregator is triggered, and a pass for another fails and is to be
tried again after a delay that has begun. -/
def interrupted : List Step :=
  [.start, .dispatch [shows], .trigger "default" "index", .trigger "default" "other", .begin 2,
    .coordinated 2 (.ok { errors := ["down"], requeueAfter := some 30 }), .begin 3]

/-- Stopping then leaves three lines behind, and none of the three gets a task after a restart. -/
theorem left_behind_interrupted :
    let c := ((idle {} 0).run interrupted).stop
    c.inFlight = [shows.key] ∧ c.pending = [("default", "index"), ("default", "other")] ∧
      c.tasks = [] ∧ (c.start.dispatch [shows]).1 = 0 ∧
      (c.start.trigger "default" "index").tasks = [] ∧
      (c.start.trigger "default" "other").tasks = [] := by
  decide

end Controller

end Steward
