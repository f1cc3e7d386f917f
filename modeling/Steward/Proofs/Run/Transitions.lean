import Steward.Proofs.Run.Writers

/-!
# Transition times

The transition time of a condition is about the history of its status value, and a status does not
hold its history.  Here it is read off the log of status writes: however passes, registration
writes and users take turns, each stored condition carries the clock of the first of the passes
since which it has had its status, whatever became of its reason, message and generation.

A pass sets (`set_condition`) each type at most once, so between two statuses that are stored a
condition either was left alone or was set at the time of one pass (`Retimed`); a status value that
is passed through on the way to another would move the time.
-/

namespace Steward.Run

open Pass Reconcile

/-! ## 1. Histories -/

/-- The status writes by passes over the resource of a key, the latest first. -/
def passes (writes : List (Write writers)) (kind ns name : String) : List (Write writers) :=
  writes.filter fun x => Writer.isPass x.party && decide (x.before.IsAt kind ns name)

/-- The conditions that a write stored. -/
def stored (x : Write writers) : Conditions :=
  match Status.ofMembers x.after.status with
  | .ok s => s.conditions
  | .error _ => []

/-- A write stored this status value for a type. -/
def shows (type status : String) (x : Write writers) : Bool :=
  ((stored x).find? type).any fun c => c.status = status

/-- The earliest write of a history since which all of its writes stored this status value. -/
def since (history : List (Write writers)) (type status : String) : Option (Write writers) :=
  (history.takeWhile (shows type status)).getLast?

/-- The condition carries the clock of the pass since which it has had its status. -/
def Timely (history : List (Write writers)) (c : Condition) : Prop :=
  ∃ x ctx, since history c.type c.status = some x ∧ x.party = .pass ctx x.before ∧
    c.lastTransition = some ctx.now

variable {history writes : List (Write writers)} {x : Write writers} {type status : String}
  {kind ns name : String}

theorem since_cons_of_shows (h : shows type status x = true) :
    since (x :: history) type status = some ((since history type status).getD x) := by
  rw [since, List.takeWhile_cons_of_pos h, List.getLast?_cons, since]

/-- Nothing has a status since before the latest write, unless that write shows it. -/
theorem since_of_head (h : ∀ y ∈ history.head?, shows type status y = false) :
    since history type status = none := by
  rw [since]
  cases history with
  | nil => rfl
  | cons y history =>
    have hy : ¬ shows type status y = true := by
      rw [h y rfl]
      exact Bool.false_ne_true
    rw [List.takeWhile_cons_of_neg hy]
    rfl

theorem passes_cons_of_pass (hpass : Writer.isPass x.party = true)
    (hat : x.before.IsAt kind ns name) :
    passes (x :: writes) kind ns name = x :: passes writes kind ns name :=
  List.filter_cons_of_pos (by rw [hpass, Bool.true_and]; exact decide_eq_true hat)

theorem passes_cons_of_registration (hpass : Writer.isPass x.party = false) :
    passes (x :: writes) kind ns name = passes writes kind ns name :=
  List.filter_cons_of_neg (by rw [hpass, Bool.false_and]; exact Bool.false_ne_true)

theorem passes_cons_of_ne (hat : ¬ x.before.IsAt kind ns name) :
    passes (x :: writes) kind ns name = passes writes kind ns name := by
  refine List.filter_cons_of_neg ?_
  rw [decide_eq_false hat, Bool.and_false]
  exact Bool.false_ne_true

/-! ## 2. What a pass sets -/

/-- The conditions `ds` are those of `cs` after some were set at the time `now`, none of them twice
on the way. -/
structure Retimed (now : Timestamp) (cs ds : Conditions) : Prop where
  nodup : (cs.map (·.type)).Nodup → (ds.map (·.type)).Nodup
  found : ∀ type c, ds.find? type = some c → cs.find? type = some c ∨
    c.lastTransition = some (cs.transitionTime type c.status now)

variable {now : Timestamp} {cs : Conditions}

theorem retimed_set (reason message : String) (generation : Option Int) :
    Retimed now cs (cs.set type status reason message generation now) where
  nodup h := Conditions.nodup_types_put h _
  found other c hc := by
    by_cases hother : other = type
    · rw [hother, Conditions.find?_set_self, Option.some.injEq] at hc
      rw [hother, ← hc]
      exact Or.inr rfl
    · rw [Conditions.find?_set_of_ne cs hother] at hc
      exact Or.inl hc

theorem nodup_types_announce {generation : Int} (ss : List Behaviour.Signal)
    (h : (cs.map (·.type)).Nodup) :
    ((Behaviour.announce generation now cs ss).map (·.type)).Nodup := by
  induction ss generalizing cs with
  | nil => exact h
  | cons signal ss ih => exact ih (Conditions.nodup_types_put h _)

/-- Signals of different types do not come in each other's way. -/
theorem retimed_announce {generation : Int} {ss : List Behaviour.Signal}
    (hss : (ss.map (·.type)).Nodup) : Retimed now cs (Behaviour.announce generation now cs ss) where
  nodup := nodup_types_announce ss
  found type c hc := by
    by_cases htype : type ∈ ss.map (·.type)
    · obtain ⟨signal, hsignal, rfl⟩ := List.mem_map.mp htype
      rw [Behaviour.find?_announce_of_mem cs hss hsignal, Option.some.injEq] at hc
      rw [← hc]
      exact Or.inr rfl
    · rw [Behaviour.find?_announce_of_notMem cs htype] at hc
      exact Or.inl hc

/-- An amendment sets conditions at the time of its pass; a registration write sets none. -/
theorem Amends.retimed {p : Writer} {asked : List Exchange} {r : Resource} {s s' : Status}
    (h : Amends p asked r s s') :
    (p.isPass = false ∧ s'.conditions = s.conditions) ∨
    ∃ ctx, p = .pass ctx r ∧ Retimed ctx.now s.conditions s'.conditions := by
  cases h with
  | @active ctx r m b asked reads mid _ _ _ _ =>
    exact Or.inr ⟨ctx, rfl, retimed_announce (b.nodup_types_signals ctx m)⟩
  | @invalid ctx r s asked message _ _ => exact Or.inr ⟨ctx, rfl, retimed_set _ _ _⟩
  | registration _ _ => exact Or.inl ⟨rfl, rfl⟩

/-! ## 3. One more pass -/

/-- What was stored last is `cs`, and its conditions are timely. -/
structure Timed (history : List (Write writers)) (cs : Conditions) : Prop where
  nodup : (cs.map (·.type)).Nodup
  latest : ∀ x ∈ history.head?, stored x = cs
  timely : ∀ type c, cs.find? type = some c → Timely history c

theorem timed_nil : Timed [] [] where
  nodup := List.nodup_nil
  latest _ hx := nomatch hx
  timely _ _ hc := nomatch hc

/-- The time since which a type has a status value is the clock of the pass since which it was
stored, or the present time if it was not. -/
theorem Timed.transitionTime (h : Timed history cs) (type status : String) (now : Timestamp) :
    (∃ y ctx, since history type status = some y ∧ y.party = .pass ctx y.before ∧
      cs.transitionTime type status now = ctx.now) ∨
    (since history type status = none ∧ cs.transitionTime type status now = now) := by
  have hchanged : (∀ c ∈ cs.find? type, c.status ≠ status) →
      since history type status = none := by
    refine fun hc => since_of_head fun y hy => ?_
    rw [shows, h.latest y hy, Option.any_eq_false]
    exact fun c hfind => decide_eq_false (hc c hfind)
  rw [Conditions.transitionTime]
  cases hfind : cs.find? type with
  | none => exact Or.inr ⟨hchanged fun c hc => (by cases hfind.symm.trans hc), rfl⟩
  | some c =>
    dsimp only
    by_cases hstatus : c.status = status
    · obtain ⟨y, ctx, hsince, hy, hlast⟩ := h.timely type c hfind
      rw [Conditions.type_of_find? hfind, hstatus] at hsince
      rw [if_pos hstatus, hlast]
      exact Or.inl ⟨y, ctx, hsince, hy, rfl⟩
    · rw [if_neg hstatus]
      refine Or.inr ⟨hchanged fun d hd => ?_, rfl⟩
      rwa [← Option.some.inj (hfind.symm.trans hd)]

/-- **One more pass.**  A condition that keeps its status keeps its pass, any other has this one. -/
theorem Timed.cons (h : Timed history cs) {ctx : Context} (hparty : x.party = .pass ctx x.before)
    (hx : Retimed ctx.now cs (stored x)) : Timed (x :: history) (stored x) where
  nodup := hx.nodup h.nodup
  latest y hy := (Option.some.inj hy) ▸ rfl
  timely type c hc := by
    have htype := Conditions.type_of_find? hc
    have hshows : shows c.type c.status x = true := by
      rw [shows, htype, hc, Option.any_some]
      exact decide_eq_true rfl
    have htime : c.lastTransition = some (cs.transitionTime c.type c.status ctx.now) := by
      rw [htype]
      rcases hx.found type c hc with hsame | htime
      · obtain ⟨-, ctx', -, -, hlast⟩ := h.timely type c hsame
        rw [Conditions.transitionTime, hsame, hlast]
        dsimp only
        rw [if_pos rfl, hlast, Option.getD_some]
      · exact htime
    rw [Timely, since_cons_of_shows hshows, htime]
    rcases h.transitionTime c.type c.status ctx.now with ⟨y, ctx', hsince, hy, hnow⟩ | ⟨hsince, hnow⟩
    · rw [hsince, hnow]
      exact ⟨y, ctx', rfl, hy, rfl⟩
    · rw [hsince, hnow]
      exact ⟨x, ctx, rfl, hparty, rfl⟩

/-! ## 4. Runs -/

/-- The invariant of runs, for the resource of one key. -/
def Tracked (kind ns name : String) (w : World writers) : Prop :=
  ∀ r, w.store.find? kind ns name = some r →
    ∃ s, Status.ofMembers r.status = .ok s ∧ s.Dated ∧
      Timed (passes w.writes kind ns name) s.conditions

variable {w w' w₀ : World writers} {r : Resource} {document : Json.Members}

theorem Tracked.spares (hw : Tracked kind ns name w) (h : Spares w w') :
    Tracked kind ns name w' := by
  intro r hr
  obtain ⟨before, hbefore, hstatus⟩ := h.same_status hr
  rw [hstatus, h.writes]
  exact hw before hbefore

theorem Tracked.accepts_of_ne (hw : Tracked kind ns name w) (h : Accepts w w' x r document)
    (hat : ¬ x.before.IsAt kind ns name) : Tracked kind ns name w' := by
  intro q hq
  rw [h.find?_of_ne hat] at hq
  rw [h.writes, passes_cons_of_ne hat]
  exact hw q hq

theorem Tracked.accepts_of_isAt (hw : Tracked kind ns name w) (h : Accepts w w' x r document)
    (hat : x.before.IsAt kind ns name) : Tracked kind ns name w' := by
  -- what is stored under the key is what the write is based on
  obtain ⟨s, hread, hdated, htimed⟩ := hw x.before (h.find?_before hat)
  obtain ⟨s', hamends, rfl⟩ := h.amends hread
  have hdated' := hamends.dated hdated
  have hafter : Status.ofMembers x.after.status = .ok s' := by
    rw [h.after]
    exact Status.ofMembers_toMembers hdated'
  have hstored : stored x = s'.conditions := by rw [stored, hafter]
  intro q hq
  rw [h.find?_after hat, Option.some.injEq] at hq
  rw [← hq, h.writes]
  refine ⟨s', hafter, hdated', ?_⟩
  rcases hamends.retimed with ⟨hpass, hsame⟩ | ⟨ctx, hparty, hretimed⟩
  · rw [passes_cons_of_registration hpass, hsame]
    exact htimed
  · rw [passes_cons_of_pass (by rw [hparty]; rfl) hat, ← hstored]
    exact htimed.cons hparty (hstored ▸ hretimed)

/-- **Transition times.**  However passes, registration writes and users take turns from an empty
status on: in a stored status each type occurs at most once, and the transition time of a condition
is the clock of the earliest of the passes over the resource since which it has had its status. -/
theorem transition_times (hidle : w₀.tasks = []) (hlog : w₀.writes = [])
    (hempty : ∀ r, w₀.store.find? kind ns name = some r → r.status = [])
    (hrun : Runs w₀ w) (hr : w.store.find? kind ns name = some r) :
    ∃ s, Status.ofMembers r.status = .ok s ∧ (s.conditions.map (·.type)).Nodup ∧
      ∀ c ∈ s.conditions, Timely (passes w.writes kind ns name) c := by
  have h₀ : Tracked kind ns name w₀ := by
    intro r hr
    refine ⟨{}, ?_, Status.dated_empty, ?_⟩
    · rw [hempty r hr]
      exact Status.ofMembers_nil
    · rw [hlog]
      exact timed_nil
  have hw : Tracked kind ns name w := by
    refine hrun.induct hidle h₀ (fun w w' hw h => hw.spares h) fun w w' x r document hw h => ?_
    by_cases hat : x.before.IsAt kind ns name
    · exact hw.accepts_of_isAt h hat
    · exact hw.accepts_of_ne h hat
  obtain ⟨s, hread, -, htimed⟩ := hw r hr
  exact ⟨s, hread, htimed.nodup, fun c hc =>
    htimed.timely c.type c (Conditions.find?_of_mem htimed.nodup hc)⟩

/-- A resource cannot be read on Monday, nor on Tuesday after it was edited: it has not been ready
since Monday. -/
theorem transition_times_films :
    let compile : Managed → SecretMap → Capabilities → Except Failure ServiceState :=
      fun _ _ _ => .ok { app := "radarr" }
    let monday : Context := ⟨{}, compile, ⟨2024, 1, 1, 0, 0, 0, 0, some 0⟩⟩
    let tuesday : Context := ⟨{}, compile, ⟨2024, 1, 2, 0, 0, 0, 0, some 0⟩⟩
    let films : Resource := { kind := "RadarrConfig", name := "films" }
    let w₀ : World writers := { store := { resources := [films] } }
    w₀.tasks = [] ∧ w₀.writes = [] ∧
    (∀ r, w₀.store.find? "RadarrConfig" "default" "films" = some r → r.status = []) ∧
    ∃ w q r s c, Runs w₀ w ∧ w.writes.map (·.party) = [.pass tuesday q, .pass monday films] ∧
      w.store.find? "RadarrConfig" "default" "films" = some r ∧
      Status.ofMembers r.status = .ok s ∧ s.conditions = [c] ∧ c.observedGeneration = some 2 ∧
      c.lastTransition = some monday.now ∧
      Timely (passes w.writes "RadarrConfig" "default" "films") c := by
  intro compile monday tuesday films w₀
  have hmonday : monday.now.Valid := by
    simp [monday, Timestamp.Valid, Timestamp.TimeValid, Timestamp.daysInMonth]
  have htuesday : tuesday.now.Valid := by
    simp [tuesday, Timestamp.Valid, Timestamp.TimeValid, Timestamp.daysInMonth]
  have hreport (ctx : Context) {r : Resource} {misfit : Misfit} {s : Status}
      (hr : Managed.ofResource r = .error (.misfit misfit)) (hlive : r.beingDeleted = false)
      (hs : invalidStatus ctx r (.misfit misfit) = s) :
      ∃ goOn,
        Program.Leads (reconcile ctx r).program [] (.ask (.updateStatus r s.toMembers) goOn) := by
    rw [reconcile, hr, ← hs]
    dsimp only
    rw [reportInvalid, hlive]
    exact ⟨_, .refl _⟩
  let unread (generation : Int) (misfit : Misfit) : Status :=
    { conditions := [⟨Condition.ready, Condition.fails, Reason.invalidSpec.name,
        ManagedError.message (.misfit misfit), some generation, some monday.now⟩] }
  have hread (generation : Int) (misfit : Misfit) :
      Status.ofMembers (unread generation misfit).toMembers = .ok (unread generation misfit) := by
    refine Status.ofMembers_toMembers
      { Status.dated_empty with conditions := fun c hc t ht => ?_ }
    rw [List.mem_singleton.mp hc] at ht
    cases ht
    exact hmonday
  obtain ⟨misfit, hmisfit⟩ : ∃ misfit, Managed.ofResource films = .error (.misfit misfit) :=
    ⟨_, rfl⟩
  let edited : Resource :=
    { films with
      spec := [("connection", .object [])], status := (unread 1 misfit).toMembers, generation := 2
      version := 3 }
  obtain ⟨misfit', hmisfit'⟩ : ∃ misfit', Managed.ofResource edited = .error (.misfit misfit') :=
    ⟨_, rfl⟩
  have hfilms : invalidStatus monday films (.misfit misfit) = unread 1 misfit := rfl
  have hedited : invalidStatus tuesday edited (.misfit misfit') = unread 2 misfit' := by
    rw [invalidStatus, show edited.status = (unread 1 misfit).toMembers from rfl, hread]
    rfl
  obtain ⟨goOn, hfirst⟩ := hreport monday hmisfit rfl hfilms
  obtain ⟨goOn', hsecond⟩ := hreport tuesday hmisfit' rfl hedited
  have hone {r q : Resource} (hq : q ∈ [r]) :
      MemoryStore.find? ⟨[r], [], 1⟩ q.kind q.ns q.name = some q := by
    rw [List.mem_singleton.mp hq]
    simp [MemoryStore.find?]
  have hrun₁ := @runs_write writers ⟨[films], [], 1⟩ [] (.pass monday films) [] films films _ goOn
    hmonday (fun r hr => hone hr) hfirst (List.forall_mem_nil _) rfl
  have hleave := hrun₁.tail (@Step.leave writers _ [] [] _ rfl)
  have hstore : MemoryStore.setSpec
      (MemoryStore.put ⟨[films], [], 1⟩ (MemoryStore.written films (unread 1 misfit).toMembers))
      "RadarrConfig" "default" "films" edited.spec = ⟨[edited], [], 1⟩ := rfl
  have hedit := hleave.tail (.edit "RadarrConfig" "default" "films" edited.spec)
  rw [hstore] at hedit
  have hrun := hedit.trans (@runs_write writers ⟨[edited], [], 1⟩ _ (.pass tuesday edited) [] edited
    edited _ goOn' htuesday (fun r hr => hone hr) hsecond (List.forall_mem_nil _) rfl)
  have hempty : ∀ r, w₀.store.find? "RadarrConfig" "default" "films" = some r → r.status = [] := by
    intro r hr
    cases hr
    rfl
  obtain ⟨s, hs, -, htimely⟩ := transition_times rfl rfl hempty hrun
    (show MemoryStore.find? _ "RadarrConfig" "default" "films" = some _ from rfl)
  have hs' := hs.symm.trans (hread 2 misfit')
  rw [Except.ok.injEq] at hs'
  subst hs'
  exact ⟨rfl, rfl, hempty, _, _, _, _, _, hrun, rfl, rfl, hs, rfl, rfl, rfl,
    htimely _ List.mem_cons_self⟩

end Steward.Run
