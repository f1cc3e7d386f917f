import Mathlib.Data.List.Count
import Steward.Proofs.Controller.Moves

/-!
# At most one reconciliation for a resource

A key is in flight (`_in_flight`) exactly as long as there is a task for its resource, and there are
never two (`one_flight_per_resource`).  A dispatch (`dispatch_due`) starts one task for each key of
its batch that is not in flight, whatever the batch repeats, and says how many it started
(`dispatch_launches`).
-/

namespace Steward

/-- The task reconciles the resource of a key. -/
def ControllerTask.reconciles (key : String) : ControllerTask → Bool
  | .reconcile r _ => r.key == key
  | .coordination .. => false

namespace Controller

variable {c c' : Controller}

/-- The number of tasks that reconcile the resource of a key. -/
def flights (c : Controller) (key : String) : Nat := c.count (·.reconciles key)

/-! ## 1. The book of flights -/

/-- One task for each key in flight, and none for any other. -/
def FlightsBooked (c : Controller) : Prop := Tallies c.inFlight c.flights

theorem flightsBooked_idle (settings : Settings.Controller) (spawned : Nat) :
    (idle settings spawned).FlightsBooked := fun _ => rfl

theorem flights_spawn_reconcile (c : Controller) (r : Resource) (stage : ReconcileStage) :
    (c.spawn (.reconcile r stage)).flights =
      fun key => c.flights key + if r.key = key then 1 else 0 := by
  funext key
  simp only [flights, count_spawn, ControllerTask.reconciles, beq_iff_eq]

theorem flights_spawn_coordination (c : Controller) (ns name : String)
    (stage : CoordinationStage) : (c.spawn (.coordination ns name stage)).flights = c.flights := by
  funext key
  exact count_spawn c _ _

theorem flights_of_reconcile {before after : List (Nat × ControllerTask)} {id : Nat} {r : Resource}
    {stage : ReconcileStage} (h : c.tasks = before ++ (id, .reconcile r stage) :: after) :
    c.flights = fun key => (before ++ after).countP (fun e => e.2.reconciles key) +
      if r.key = key then 1 else 0 := by
  funext key
  simp only [flights, count_of_tasks h, ControllerTask.reconciles, beq_iff_eq]

theorem flights_of_coordination {before after : List (Nat × ControllerTask)} {id : Nat}
    {ns name : String} {stage : CoordinationStage}
    (h : c.tasks = before ++ (id, .coordination ns name stage) :: after) :
    c.flights = fun key => (before ++ after).countP fun e => e.2.reconciles key := by
  funext key
  exact count_of_tasks h _

/-- A key is entered with its task, and struck out with it. -/
theorem Moves.edits_flights (hmove : Moves c c') :
    Edits c.inFlight c.flights c'.inFlight c'.flights := by
  cases hmove with
  | start => exact .keep
  | launch r hr =>
    rw [Controller.launch, flights_spawn_reconcile]
    exact .enter hr
  | enqueue ns name delay =>
    rw [flights_spawn_coordination]
    exact .keep
  | land htasks => exact .strike (flights_of_reconcile htasks)
  | advance next htasks =>
    rw [flights_of_reconcile htasks, flights_of_reconcile rfl]
    exact .keep
  | doze htasks | depart _ htasks =>
    rw [flights_of_coordination htasks, flights_of_coordination rfl]
    exact .keep
  | finish htasks | quit _ htasks =>
    rw [flights_of_coordination htasks]
    exact .keep

theorem Moves.flightsBooked (hmove : Moves c c') (h : c.FlightsBooked) : c'.FlightsBooked :=
  hmove.edits_flights.tallies h

/-! ## 2. Dispatches -/

/-- Tasks that have not begun, numbered from a number on. -/
def newTasks (first : Nat) (rs : List Resource) : List (Nat × ControllerTask) :=
  (rs.zipIdx first).map fun e => (e.2, .reconcile e.1 .waiting)

/-- The resources that a dispatch starts tasks for: one for each key of the batch that is not in
flight. -/
structure Launches (c : Controller) (batch launched : List Resource) : Prop where
  sublist : launched.Sublist batch
  nodup : (launched.map Resource.key).Nodup
  keys : ∀ key, key ∈ launched.map Resource.key ↔
    key ∈ batch.map Resource.key ∧ key ∉ c.inFlight
  started : (c.dispatch batch).1 = launched.length
  tasks : (c.dispatch batch).2.tasks = c.tasks ++ newTasks c.spawned launched

theorem mem_inFlight_launch (c : Controller) (r : Resource) (key : String) :
    key ∈ (c.launch r).inFlight ↔ key ∈ c.inFlight ∨ key = r.key := by
  rw [launch, spawn, List.mem_append, List.mem_singleton]

/-- A dispatch goes through its batch; what it launches is in flight for the rest of it. -/
theorem dispatch_launches (c : Controller) (batch : List Resource) :
    ∃ launched, c.Launches batch launched := by
  induction batch generalizing c with
  | nil => exact ⟨[], .refl _, List.nodup_nil, fun key => by simp, rfl, (List.append_nil _).symm⟩
  | cons r rest ih =>
    by_cases hr : r.key ∈ c.inFlight
    · -- the resource is passed over
      have hdispatch : c.dispatch (r :: rest) = c.dispatch rest := by
        rw [dispatch, if_pos (List.contains_iff_mem.mpr hr)]
      obtain ⟨launched, h⟩ := ih c
      refine ⟨launched, h.sublist.cons r, h.nodup, fun key => ?_, ?_, ?_⟩
      · rw [h.keys, List.map_cons, List.mem_cons]
        constructor
        · rintro ⟨hmem, hnot⟩
          exact ⟨Or.inr hmem, hnot⟩
        · rintro ⟨rfl | hmem, hnot⟩
          · exact absurd hr hnot
          · exact ⟨hmem, hnot⟩
      · rw [hdispatch, h.started]
      · rw [hdispatch, h.tasks]
    · have hdispatch : c.dispatch (r :: rest) =
          (((c.launch r).dispatch rest).1 + 1, ((c.launch r).dispatch rest).2) := by
        rw [dispatch, if_neg fun hmem => hr (List.contains_iff_mem.mp hmem)]
      obtain ⟨launched, h⟩ := ih (c.launch r)
      refine ⟨r :: launched, h.sublist.cons_cons r, ?_, fun key => ?_, ?_, ?_⟩
      · rw [List.map_cons, List.nodup_cons]
        refine ⟨fun hmem => ((h.keys r.key).mp hmem).2 ?_, h.nodup⟩
        exact (mem_inFlight_launch c r r.key).mpr (Or.inr rfl)
      · rw [List.map_cons, List.mem_cons, h.keys, mem_inFlight_launch, List.map_cons, List.mem_cons]
        by_cases heq : key = r.key
        · simp [heq, hr]
        · simp [heq]
      · rw [hdispatch, List.length_cons, h.started]
      · rw [hdispatch, h.tasks]
        simp [launch, spawn, newTasks, List.zipIdx_cons]

/-! ## 3. Runs -/

/-- **At most one reconciliation for a resource.**  After every run without a stop, a key is in
flight exactly if there is one task for its resource, and there are never two; and a dispatch of any
batch then starts one task for each key of the batch that is not in flight, and counts them. -/
theorem one_flight_per_resource (settings : Settings.Controller) (spawned : Nat)
    {steps : List Step} (hsteps : ∀ s ∈ steps, s ≠ .stop) :
    let c := (idle settings spawned).run steps
    (∀ key, (key ∈ c.inFlight ↔ c.flights key = 1) ∧ c.flights key ≤ 1) ∧
      ∀ batch, ∃ launched, c.Launches batch launched := by
  have hbooked := ((numbered_idle settings spawned).run_keeps Moves.flightsBooked hsteps
    (flightsBooked_idle settings spawned)).2
  exact ⟨fun key => ⟨hbooked.mem_iff key, hbooked.le_one key⟩, dispatch_launches _⟩

def shows : Resource := { kind := "SonarrConfig", name := "shows" }

def films : Resource := { kind := "RadarrConfig", name := "films" }

/-- The shows are dispatched, again while their task runs, and again after its pass took too
long. -/
def overdue : List Step :=
  [.dispatch [shows, shows], .begin 0, .dispatch [shows], .reconciled 0 (.error (.timeout "")),
    .scheduled 0, .dispatch [shows]]

/-- One task for the shows, and of the next batch only the films are started. -/
theorem one_flight_per_resource_overdue :
    (∀ s ∈ overdue, s ≠ .stop) ∧
      let c := (idle {} 0).run overdue
      c.inFlight = [shows.key] ∧ c.flights shows.key = 1 ∧
        ∃ launched, c.Launches [films, shows, films] launched ∧ launched.length = 1 := by
  have hsteps : ∀ s ∈ overdue, s ≠ .stop := by simp [overdue]
  obtain ⟨hflights, hdispatch⟩ := one_flight_per_resource {} 0 hsteps
  have hin : ((idle {} 0).run overdue).inFlight = [shows.key] := by decide
  obtain ⟨launched, hlaunched⟩ := hdispatch [films, shows, films]
  refine ⟨hsteps, hin, (hflights shows.key).1.mp ?_, launched, hlaunched, ?_⟩
  · rw [hin]
    exact List.mem_singleton_self _
  · rw [← hlaunched.started]
    decide

end Controller

end Steward
