import Steward.Proofs.Run.Writers

/-!
# Ready means ready

Whatever passes, registration writes and users do, in any order, and whichever writes are lost: a
stored status that is ready is one whose service was connected to and whose configuration was
applied in full, with the generation and the hash of the very pass that made it ready.  A status
write that does not leave the resource ready moves neither the hash nor the generation.

Each status write (`_persist`, `_write_registration`) amends the status that is stored, so one case
for each kind of write carries the invariant along a run.
-/

namespace Steward.Reconcile.Behaviour

variable {b : Behaviour} {ctx : Context} {m : Managed}

/-! ## 1. Complete passes -/

theorem failure?_of_outcomeFrom {stages : List Stage}
    (h : b.outcomeFrom ctx m stages = .complete) : ∀ s ∈ stages, b.failure? ctx m s = none := by
  induction stages with
  | nil => exact fun s hs => nomatch hs
  | cons s rest ih =>
    rw [outcomeFrom] at h
    split at h
    · cases h
    · rename_i hs
      intro t ht
      rcases List.mem_cons.mp ht with rfl | ht
      · exact hs
      · exact ih h t ht

/-- A complete pass has compiled its resource. -/
theorem compiled_of_complete (h : b.outcome ctx m = .complete) :
    b.compiled ctx m = .ok (b.desired ctx m) := by
  have hcompile : failureText? (b.compiled ctx m) = none :=
    failure?_of_outcomeFrom h .compile (by decide)
  rw [desired]
  cases hc : b.compiled ctx m with
  | error e =>
    rw [hc] at hcompile
    cases hcompile
  | ok desired => rfl

/-- A signal that holds is a condition that holds. -/
theorem isTrue_of_mem_signals {signal : Signal} (h : signal ∈ b.signals ctx m)
    (hstatus : signal.status = Condition.holds) :
    (b.status ctx m).conditions.isTrue signal.type = true :=
  Conditions.isTrue_iff.mpr ⟨_, (b.classifies_status ctx m).signals signal h, hstatus⟩

theorem isTrue_connected_of_complete (h : b.outcome ctx m = .complete) :
    (b.status ctx m).conditions.isTrue Condition.connected = true := by
  have hmem : ⟨Condition.connected, Condition.holds, .connected,
      "Connected to " ++ m.service ++ " " ++ b.version⟩ ∈ b.signals ctx m := by
    rw [signals, h]
    exact List.mem_cons_self
  exact isTrue_of_mem_signals hmem rfl

theorem isTrue_synced_of_complete (h : b.outcome ctx m = .complete) :
    (b.status ctx m).conditions.isTrue Condition.synced = true := by
  have hsynced : ∃ signal ∈ b.syncedSignal .complete,
      signal.type = Condition.synced ∧ signal.status = Condition.holds := by
    rw [syncedSignal]
    split
    · exact ⟨_, List.mem_cons_self, rfl, rfl⟩
    · exact ⟨_, List.mem_cons_self, rfl, rfl⟩
  obtain ⟨signal, hmem, htype, hstatus⟩ := hsynced
  rw [← htype]
  refine isTrue_of_mem_signals ?_ hstatus
  rw [signals, h]
  exact List.mem_append_left _ (List.mem_append_right _ hmem)

end Steward.Reconcile.Behaviour

namespace Steward.Run

open Pass Reconcile

/-! ## 2. Trust -/

/-- A pass over the resource `r` that was replied to like this compiled the state `desired`, and was
complete. -/
def Compiled (ctx : Context) (r : Resource) (asked : List Exchange) (desired : ServiceState) :
    Prop :=
  ∃ (m : Managed) (b : Behaviour) (reads : List Exchange) (mid : Cache),
    Managed.ofResource r = .ok m ∧ Follows (Secret.resolve m) [] reads b.secrets mid ∧
      quiet asked = reads ++ b.calls ctx m ∧ b.outcome ctx m = .complete ∧
      b.compiled ctx m = .ok desired

/-- The last status write by a pass over the resource of a key. -/
def lastPass? (writes : List (Write writers)) (kind ns name : String) : Option (Write writers) :=
  writes.find? fun x => Writer.isPass x.party && decide (x.before.IsAt kind ns name)

/-- What the status `s` of a resource that is ready promises, after these status writes. -/
structure Trustworthy (writes : List (Write writers)) (kind ns name : String) (s : Status) :
    Prop where
  connected : s.conditions.isTrue Condition.connected = true
  synced : s.conditions.isTrue Condition.synced = true
  flag : s.connected = true
  generation : ∀ c, s.conditions.find? Condition.ready = some c →
    s.observedGeneration = c.observedGeneration
  /-- The hash is that of the state which was compiled by the pass that wrote the condition. -/
  hash : ∃ (x : Write writers) (ctx : Context) (s₁ : Status) (desired : ServiceState),
    lastPass? writes kind ns name = some x ∧ x.party = .pass ctx x.before ∧
      Status.ofMembers x.after.status = .ok s₁ ∧
      s₁.conditions.find? Condition.ready = s.conditions.find? Condition.ready ∧
      Compiled ctx x.before x.asked desired ∧ s.lastAppliedHash = some desired.sourceHash

/-- The write leaves the hash and the generation as they were, unless it makes or leaves the
resource ready. -/
def Keeps (x : Write writers) : Prop :=
  ∃ s s', Status.ofMembers x.before.status = .ok s ∧ Status.ofMembers x.after.status = .ok s' ∧
    (s'.conditions.isTrue Condition.ready = false →
      s'.lastAppliedHash = s.lastAppliedHash ∧ s'.observedGeneration = s.observedGeneration)

/-! ## 3. Amendments -/

variable {p : Writer} {asked : List Exchange} {r : Resource} {s s' : Status}
  {writes : List (Write writers)} {x : Write writers} {kind ns name : String}

theorem Amends.keeps (h : Amends p asked r s s')
    (hready : s'.conditions.isTrue Condition.ready = false) :
    s'.lastAppliedHash = s.lastAppliedHash ∧ s'.observedGeneration = s.observedGeneration := by
  cases h with
  | @active ctx r m b asked reads mid _ _ _ _ =>
    refine (b.classifies_status ctx m).incomplete fun hcomplete => ?_
    rw [(b.status_isTrue_ready_iff ctx m).mpr hcomplete] at hready
    cases hready
  | invalid _ _ _ => exact ⟨rfl, rfl⟩
  | registration _ _ => exact ⟨rfl, rfl⟩

theorem Amends.conditions_of_registration (h : Amends p asked r s s') (hp : p.isPass = false) :
    s'.conditions = s.conditions := by
  cases h with
  | registration _ _ => rfl
  | _ => cases hp

/-- A pass that makes its resource ready keeps all that this promises. -/
theorem Amends.trustworthy_of_pass (h : Amends x.party x.asked x.before s s')
    (hpass : Writer.isPass x.party = true) (hat : x.before.IsAt kind ns name)
    (hafter : Status.ofMembers x.after.status = .ok s')
    (hready : s'.conditions.isTrue Condition.ready = true) :
    Trustworthy (x :: writes) kind ns name s' := by
  have hlast : lastPass? (x :: writes) kind ns name = some x :=
    List.find?_cons_of_pos (by rw [hpass, Bool.true_and]; exact decide_eq_true hat)
  obtain ⟨party, asked, before, written⟩ := x
  dsimp only at h hafter hpass hat
  cases h with
  | @active ctx r m b asked reads mid _ hm hreads hquiet =>
    have hcomplete := (b.status_isTrue_ready_iff ctx m).mp hready
    have hclassifies := b.classifies_status ctx m
    obtain ⟨hhash, hgeneration⟩ := hclassifies.complete hcomplete
    refine
      { connected := Behaviour.isTrue_connected_of_complete hcomplete
        synced := Behaviour.isTrue_synced_of_complete hcomplete
        flag := by rw [hclassifies.connected, hcomplete]; rfl
        generation := fun c hc => ?_
        hash := ⟨_, ctx, _, b.desired ctx m, hlast, rfl, hafter, rfl, ?_, hhash⟩ }
    · rw [Behaviour.find?_ready_status, Option.some.injEq] at hc
      rw [hgeneration, ← hc]
      rfl
    · exact ⟨m, b, reads, mid, hm, hreads, hquiet, hcomplete,
        Behaviour.compiled_of_complete hcomplete⟩
  | invalid message _ _ =>
    obtain ⟨c, hc, hholds⟩ := Conditions.isTrue_iff.mp hready
    rw [Conditions.find?_set_self, Option.some.injEq] at hc
    rw [← hc] at hholds
    exact absurd (show Condition.fails = Condition.holds from hholds) (by decide)
  | registration _ _ => cases hpass

/-- A registration write breaks no promise. -/
theorem Amends.trustworthy_of_registration (h : Amends x.party x.asked x.before s s')
    (hpass : Writer.isPass x.party = false) (hs : Trustworthy writes kind ns name s) :
    Trustworthy (x :: writes) kind ns name s' := by
  have hlast : lastPass? (x :: writes) kind ns name = lastPass? writes kind ns name :=
    List.find?_cons_of_neg (by rw [hpass, Bool.false_and]; exact Bool.false_ne_true)
  obtain ⟨party, asked, before, written⟩ := x
  dsimp only at h hpass
  cases h with
  | active _ _ _ _ => cases hpass
  | invalid _ _ _ => cases hpass
  | registration _ _ =>
    refine ⟨hs.connected, hs.synced, hs.flag, hs.generation, ?_⟩
    rw [hlast]
    exact hs.hash

/-- A write for another resource is not seen. -/
theorem Trustworthy.cons_of_ne (hs : Trustworthy writes kind ns name s)
    (hat : ¬ x.before.IsAt kind ns name) : Trustworthy (x :: writes) kind ns name s := by
  have hlast : lastPass? (x :: writes) kind ns name = lastPass? writes kind ns name := by
    refine List.find?_cons_of_neg ?_
    rw [decide_eq_false hat, Bool.and_false]
    exact Bool.false_ne_true
  refine ⟨hs.connected, hs.synced, hs.flag, hs.generation, ?_⟩
  rw [hlast]
  exact hs.hash

/-! ## 4. Runs -/

/-- The invariant of runs, for the resource of one key. -/
structure Trusted (kind ns name : String) (w : World writers) : Prop where
  stored : ∀ r, w.store.find? kind ns name = some r →
    ∃ s, Status.ofMembers r.status = .ok s ∧ s.Dated ∧
      (s.conditions.isTrue Condition.ready = true → Trustworthy w.writes kind ns name s)
  logged : ∀ x ∈ w.writes, x.before.IsAt kind ns name → Keeps x

variable {w w' w₀ : World writers} {document : Json.Members}

theorem Trusted.spares (hw : Trusted kind ns name w) (h : Spares w w') :
    Trusted kind ns name w' := by
  constructor
  · intro r hr
    obtain ⟨before, hbefore, hstatus⟩ := h.same_status hr
    rw [hstatus, h.writes]
    exact hw.stored before hbefore
  · rw [h.writes]
    exact hw.logged

theorem Trusted.accepts_of_ne (hw : Trusted kind ns name w) (h : Accepts w w' x r document)
    (hat : ¬ x.before.IsAt kind ns name) : Trusted kind ns name w' := by
  constructor
  · intro q hq
    rw [h.find?_of_ne hat] at hq
    obtain ⟨s, hread, hdated, htrust⟩ := hw.stored q hq
    rw [h.writes]
    exact ⟨s, hread, hdated, fun hready => (htrust hready).cons_of_ne hat⟩
  · rw [h.writes]
    intro y hy hy'
    rcases List.mem_cons.mp hy with rfl | hy
    · exact absurd hy' hat
    · exact hw.logged y hy hy'

theorem Trusted.accepts_of_isAt (hw : Trusted kind ns name w) (h : Accepts w w' x r document)
    (hat : x.before.IsAt kind ns name) : Trusted kind ns name w' := by
  -- what is stored under the key is what the write is based on
  obtain ⟨s, hread, hdated, htrust⟩ := hw.stored _ (h.find?_before hat)
  obtain ⟨s', hamends, rfl⟩ := h.amends hread
  have hdated' := hamends.dated hdated
  have hafter : Status.ofMembers x.after.status = .ok s' := by
    rw [h.after]
    exact Status.ofMembers_toMembers hdated'
  have hkeeps : Keeps x := ⟨s, s', hread, hafter, hamends.keeps⟩
  constructor
  · intro q hq
    rw [h.find?_after hat, Option.some.injEq] at hq
    subst hq
    refine ⟨s', hafter, hdated', fun hready => ?_⟩
    rw [h.writes]
    cases hpass : Writer.isPass x.party with
    | true => exact hamends.trustworthy_of_pass hpass hat hafter hready
    | false =>
      refine hamends.trustworthy_of_registration hpass (htrust ?_)
      rwa [hamends.conditions_of_registration hpass] at hready
  · rw [h.writes]
    intro y hy hy'
    rcases List.mem_cons.mp hy with rfl | hy
    · exact hkeeps
    · exact hw.logged y hy hy'

/-- **Ready is trustworthy.**  However passes, registration writes and users take turns from an
empty status on, a stored status that is ready keeps what this promises, and a write that does not
leave the resource ready keeps the hash and the generation. -/
theorem ready_trustworthy (hidle : w₀.tasks = []) (hlog : w₀.writes = [])
    (hempty : ∀ r, w₀.store.find? kind ns name = some r → r.status = [])
    (hrun : Runs w₀ w) :
    (∀ r, w.store.find? kind ns name = some r →
      ∃ s, Status.ofMembers r.status = .ok s ∧
        (s.conditions.isTrue Condition.ready = true → Trustworthy w.writes kind ns name s)) ∧
    ∀ x ∈ w.writes, x.before.IsAt kind ns name → Keeps x := by
  have h₀ : Trusted kind ns name w₀ := by
    constructor
    · intro r hr
      refine ⟨{}, ?_, Status.dated_empty, fun hready => nomatch hready⟩
      rw [hempty r hr]
      exact Status.ofMembers_nil
    · rw [hlog]
      exact fun x hx => nomatch hx
  have hw : Trusted kind ns name w := by
    refine hrun.induct hidle h₀ (fun w w' hw h => hw.spares h) fun w w' x r document hw h => ?_
    by_cases hat : x.before.IsAt kind ns name
    · exact hw.accepts_of_isAt h hat
    · exact hw.accepts_of_ne h hat
  refine ⟨fun r hr => ?_, hw.logged⟩
  obtain ⟨s, hread, -, htrust⟩ := hw.stored r hr
  exact ⟨s, hread, htrust⟩

/-- A pass over a resource whose service has nothing to change makes it ready. -/
theorem ready_trustworthy_films :
    let films : Resource :=
      { kind := "RadarrConfig", name := "films"
        finalizers := ["radarrconfig.arr-operator.io/finalizer"]
        spec := [("connection", .object [("url", .string "http://films")])] }
    let w₀ : World writers := { store := { resources := [films] } }
    w₀.tasks = [] ∧ w₀.writes = [] ∧
    (∀ r, w₀.store.find? "RadarrConfig" "default" "films" = some r → r.status = []) ∧
    ∃ (w : World writers) (r : Resource) (s : Status), Runs w₀ w ∧
      w.store.find? "RadarrConfig" "default" "films" = some r ∧
      Status.ofMembers r.status = .ok s ∧ s.lastAppliedHash = some "f00d" ∧
      Trustworthy w.writes "RadarrConfig" "default" "films" s := by
  let ctx : Context :=
    ⟨{}, fun _ _ _ => .ok { app := "radarr", sourceHash := "f00d" },
      ⟨2024, 1, 1, 0, 0, 0, 0, some 0⟩⟩
  intro films w₀
  have hempty : ∀ r, w₀.store.find? "RadarrConfig" "default" "films" = some r → r.status = [] := by
    intro r hr
    cases hr
    rfl
  refine ⟨rfl, rfl, hempty, ?_⟩
  have hnow : ctx.now.Valid := by
    simp [ctx, Timestamp.Valid, Timestamp.TimeValid, Timestamp.daysInMonth]
  obtain ⟨m, b, goOn, hm, hasks, hcomplete, hhash⟩ : ∃ (m : Managed) (b : Behaviour)
      (goOn : Except Failure Resource → Program signature (Except Failure Reconciliation)),
      Managed.ofResource films = .ok m ∧
      Program.Leads (reconcile ctx films).program
        [⟨.findAdapter "radarr", .ok (some ⟨false, false⟩)⟩,
          ⟨.connect "radarr" { url := "http://films" }, .ok "5"⟩,
          ⟨.discover "radarr" { url := "http://films" }, .ok {}⟩,
          ⟨.currentState "radarr" { url := "http://films" }, .ok none⟩,
          ⟨.diff "radarr" none { app := "radarr", sourceHash := "f00d" } {}, .ok {}⟩]
        (.ask (.updateStatus films (b.status ctx m).toMembers) goOn) ∧
      b.outcome ctx m = .complete ∧ (b.desired ctx m).sourceHash = "f00d" := by
    dsimp only [ctx, films]
    exact ⟨_, { secrets := .ok [], adapter := .ok (some ⟨false, false⟩), connect := .ok "5" }, _,
      rfl, .ask (.ask (.ask (.ask (.ask (.refl _))))), rfl, rfl⟩
  have hstatus := Managed.status_of_ofResource hm
  rw [show films.status = [] from rfl, Status.ofMembers_nil, Except.ok.injEq] at hstatus
  have hdated := dated_status b (hstatus ▸ Status.dated_empty) hnow
  have hread := Status.ofMembers_toMembers hdated
  have hready := (b.status_isTrue_ready_iff ctx m).mpr hcomplete
  have hgiven : ∀ r ∈ [films], w₀.store.find? r.kind r.ns r.name = some r := by
    intro r hr
    rw [List.mem_singleton.mp hr]
    rfl
  have hrun := @runs_write writers w₀.store [] (.pass ctx films) _ films films _ goOn hnow hgiven
    hasks (by decide) rfl
  obtain ⟨s, hread', htrust⟩ := (ready_trustworthy rfl rfl hempty hrun).1 _ rfl
  have hs := hread'.symm.trans hread
  rw [Except.ok.injEq] at hs
  subst hs
  exact ⟨_, _, _, hrun, rfl, hread, hhash ▸ ((b.classifies_status ctx m).complete hcomplete).1,
    htrust hready⟩
end Steward.Run
