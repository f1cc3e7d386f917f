import Steward.Proofs.Reconcile.Behaviour
import Steward.Proofs.Secret.Reads

/-!
# What an active pass does

However its collaborators behave, an active pass resolves the secrets, asks stage by stage what its
behaviour calls for, and comes to the verdict of its behaviour (`exists_behaviour`).  Each step of
the pass is followed on its own, from the last to the first.
-/

namespace Steward.Reconcile

open Pass

variable {ctx : Context} {m : Managed} {features : AdapterFeatures} {conn : State.Connection}
  {secrets : SecretMap} {desired : ServiceState} {cache after : Cache} {xs : List Exchange}

/-! ## 1. Supplementary steps -/

/-- Settings that are applied directly never fail the pass. -/
theorem follows_applyDirect {out : Except Failure Unit}
    (h : Follows (applyDirect m features conn desired) cache xs out after) :
    ∃ direct, out = .ok () ∧ quiet xs =
      if features.directApply && desired.hasDirectSettings then
        [⟨.applyDirect m.service conn desired, direct⟩] else [] := by
  rw [applyDirect] at h
  split at h
  · rename_i hdirect
    rw [follows_ask_bind] at h
    obtain ⟨reply, rest, rfl, h⟩ := h
    refine ⟨reply, ?_⟩
    rw [if_pos hdirect]
    split at h
    · obtain ⟨_, rfl, rfl, -⟩ := follows_ask.mp h
      exact ⟨rfl, rfl⟩
    · split at h
      · obtain ⟨_, rfl, rfl, -⟩ := follows_ask.mp h
        exact ⟨rfl, rfl⟩
      · obtain ⟨rfl, rfl, -⟩ := follows_pure.mp h
        exact ⟨rfl, rfl⟩
  · rename_i hdirect
    obtain ⟨rfl, rfl, -⟩ := follows_pure.mp h
    refine ⟨.ok {}, rfl, ?_⟩
    rw [if_neg hdirect]
    rfl

theorem follows_recordAll_bind {α : Type} {events : List Event} {f : Unit → Pass α}
    {out : Except Failure α} (h : Follows (recordAll events >>= f) cache xs out after) :
    ∃ rest, quiet xs = quiet rest ∧ Follows (f ()) cache rest out after := by
  induction events generalizing xs with
  | nil => exact ⟨xs, rfl, h⟩
  | cons e events ih =>
    have h' : Follows (record e >>= fun _ => recordAll events >>= f) cache xs out after := by
      rwa [recordAll, bind_assoc] at h
    obtain ⟨rest, rfl, hrest⟩ := follows_record_bind.mp h'
    obtain ⟨rest', hquiet, hf⟩ := ih hrest
    exact ⟨rest', hquiet, hf⟩

/-- The health report never fails the pass. -/
theorem follows_reviewHealth {out : Except Failure Managed}
    (h : Follows (reviewHealth ctx m features conn) cache xs out after) :
    ∃ health, quiet xs = (if features.health then [⟨.health m.service conn, health⟩] else []) ∧
      out = .ok { m with status := { m.status with
        health := reviewed ctx features health m.status.health } } := by
  rw [reviewHealth] at h
  split at h
  · rename_i hhealth
    rw [follows_ask_bind] at h
    obtain ⟨reply, rest, rfl, h⟩ := h
    refine ⟨reply, ?_⟩
    simp only [reviewed, if_pos hhealth]
    cases reply with
    | error e =>
      obtain ⟨rfl, rfl, -⟩ := follows_pure.mp h
      exact ⟨rfl, rfl⟩
    | ok report =>
      obtain ⟨rest', hquiet, h⟩ := follows_recordAll_bind h
      obtain ⟨rfl, rfl, -⟩ := follows_pure.mp h
      exact ⟨congrArg _ hquiet, rfl⟩
  · rename_i hhealth
    obtain ⟨rfl, rfl, -⟩ := follows_pure.mp h
    refine ⟨.ok {}, ?_, ?_⟩
    · rw [if_neg hhealth]
      rfl
    · simp only [reviewed, if_neg hhealth]

/-! ## 2. After the change set -/

/-- The pass comes to its end, whatever the supplementary steps do. -/
theorem follows_finish {degraded : Option String} {out : Except Failure Verdict}
    (h : Follows (finish ctx m features conn desired degraded) cache xs out after) :
    ∃ direct health, quiet xs = supplements m.service conn features desired direct health ∧
      out = .ok (conclude ctx (finished ctx m features desired health) desired degraded) := by
  rw [finish] at h
  rcases Or.symm (follows_bind.mp h) with ⟨e, -, hdirect⟩ | ⟨ys, zs, u, mid, rfl, hdirect, hrest⟩
  · obtain ⟨_, hout, -⟩ := follows_applyDirect hdirect
    cases hout
  obtain ⟨direct, -, hquiet⟩ := follows_applyDirect hdirect
  rcases Or.symm (follows_bind.mp hrest) with
    ⟨e, -, hhealth⟩ | ⟨ys', zs', m', mid', rfl, hhealth, hend⟩
  · obtain ⟨_, -, hout⟩ := follows_reviewHealth hhealth
    cases hout
  obtain ⟨health, hquiet', hm'⟩ := follows_reviewHealth hhealth
  rw [Except.ok.injEq] at hm'
  subst hm'
  refine ⟨direct, health, ?_, ?_⟩
  · cases degraded with
    | none =>
      obtain ⟨rfl, -, -⟩ := follows_pure.mp hend
      rw [List.append_nil, quiet_append, hquiet, hquiet']
      rfl
    | some message =>
      obtain ⟨rfl, -, -⟩ := follows_pure.mp hend
      rw [List.append_nil, quiet_append, hquiet, hquiet']
      rfl
  · cases degraded with
    | none => exact (follows_pure.mp hend).2.1
    | some message => exact (follows_pure.mp hend).2.1

/-! ## 3. Stages, from the last to the first

Each lemma takes up a pass at one stage.  It gives a behaviour that agrees with what came of the
stages before, asks from that stage on what the pass asks, and has the verdict of the pass. -/

section Stages

open Behaviour

variable {version : String} {caps : Capabilities}
  {changes : ChangeSet} {out : Except Failure Verdict}

theorem follows_applyChanges (observed : Option ServiceState)
    (hcompile : ctx.compile (greeted ctx m version) secrets caps = .ok desired)
    (h : Follows (applyChanges ctx (greeted ctx m version) features
      (Compile.connection m secrets) desired changes) cache xs out after) :
    ∃ b : Behaviour, b.secrets = .ok secrets ∧ b.adapter = .ok (some features) ∧
      b.connect = .ok version ∧ b.discover = .ok caps ∧ b.currentState = .ok observed ∧
      b.diff = .ok changes ∧ quiet xs = b.callsFrom ctx m [.apply] ∧
      out = .ok (b.verdict ctx m) := by
  rw [applyChanges] at h
  split at h
  · rename_i hempty
    obtain ⟨direct, health, hquiet, rfl⟩ := follows_finish h
    refine ⟨{ secrets := .ok secrets, adapter := .ok (some features), connect := .ok version
              discover := .ok caps, currentState := .ok observed, diff := .ok changes
              applyDirect := direct, health }, rfl, rfl, rfl, rfl, rfl, rfl, ?_, ?_⟩
    · simp [hquiet, Except.toOption, hempty, hcompile]
    · rw [verdict_of_unchanged (by simp [outcome, Stage.all, Except.toOption, hempty, hcompile])
        (by simpa [Except.toOption] using hempty)]
      simp [Except.toOption, hcompile]
  rename_i hempty
  rw [Bool.not_eq_true] at hempty
  rw [follows_ask_bind] at h
  obtain ⟨apply, rest, rfl, h⟩ := h
  cases apply with
  | error e =>
    rw [follows_record_bind] at h
    obtain ⟨_, rfl, h⟩ := h
    obtain ⟨rfl, rfl, -⟩ := follows_pure.mp h
    refine ⟨{ secrets := .ok secrets, adapter := .ok (some features), connect := .ok version
              discover := .ok caps, currentState := .ok observed, diff := .ok changes
              apply := .error e }, rfl, rfl, rfl, rfl, rfl, rfl, ?_, ?_⟩
    · simp [Except.toOption, hempty]
    · rw [verdict_of_stopped_apply e.message
        (by simp [outcome, Stage.all, Except.toOption, hempty, hcompile])]
      rfl
  | ok r =>
    dsimp only at h
    split at h
    · rename_i hsuccess
      rw [follows_record_bind] at h
      obtain ⟨rest, rfl, h⟩ := h
      obtain ⟨direct, health, hquiet, rfl⟩ := follows_finish h
      refine ⟨{ secrets := .ok secrets, adapter := .ok (some features), connect := .ok version
                discover := .ok caps, currentState := .ok observed, diff := .ok changes
                apply := .ok r, applyDirect := direct, health }, rfl, rfl, rfl, rfl, rfl, rfl, ?_, ?_⟩
      · simp [hquiet, Except.toOption, hempty, hcompile]
      · rw [verdict_of_applied
          (by simp [outcome, Stage.all, Except.toOption, hempty, hcompile, hsuccess])
          (by simpa [Except.toOption] using hempty)]
        simp [Except.toOption, hcompile]
    · rename_i hsuccess
      rw [Bool.not_eq_true] at hsuccess
      rw [follows_record_bind] at h
      obtain ⟨rest, rfl, h⟩ := h
      obtain ⟨direct, health, hquiet, rfl⟩ := follows_finish h
      refine ⟨{ secrets := .ok secrets, adapter := .ok (some features), connect := .ok version
                discover := .ok caps, currentState := .ok observed, diff := .ok changes
                apply := .ok r, applyDirect := direct, health }, rfl, rfl, rfl, rfl, rfl, rfl, ?_, ?_⟩
      · simp [hquiet, Except.toOption, hempty, hcompile]
      · rw [verdict_of_degraded s!"Applied {r.applied} changes, {r.failed} failed"
          (by simp [outcome, Stage.all, Except.toOption, hempty, hcompile, hsuccess])]
        simp [Except.toOption, hcompile]

theorem follows_converge
    (h : Follows (converge ctx (greeted ctx m version) features secrets
      (Compile.connection m secrets)) cache xs out after) :
    ∃ b : Behaviour, b.secrets = .ok secrets ∧ b.adapter = .ok (some features) ∧
      b.connect = .ok version ∧
      quiet xs = b.callsFrom ctx m [.discover, .compile, .currentState, .diff, .apply] ∧
      out = .ok (b.verdict ctx m) := by
  rw [converge, follows_ask_bind] at h
  obtain ⟨discover, rest, rfl, h⟩ := h
  cases discover with
  | error e =>
    obtain ⟨rfl, rfl, -⟩ := follows_pure.mp h
    refine ⟨{ secrets := .ok secrets, adapter := .ok (some features), connect := .ok version
              discover := .error e }, rfl, rfl, rfl, ?_, ?_⟩
    · simp [Except.toOption]
    · rw [verdict_of_stopped e.message (s := .discover)
        (by simp [outcome, Stage.all]) (Or.inl rfl)]
      rfl
  | ok caps =>
  dsimp only at h
  cases hcompile : ctx.compile (greeted ctx m version) secrets caps with
  | error e =>
    rw [hcompile] at h
    obtain ⟨rfl, rfl, -⟩ := follows_pure.mp h
    refine ⟨{ secrets := .ok secrets, adapter := .ok (some features), connect := .ok version
              discover := .ok caps }, rfl, rfl, rfl, ?_, ?_⟩
    · simp [Except.toOption, hcompile]
    · rw [verdict_of_stopped e.message (s := .compile)
        (by simp [outcome, Stage.all, Except.toOption, hcompile]) (Or.inr (Or.inl rfl))]
      rfl
  | ok desired =>
  rw [hcompile] at h
  dsimp only at h
  rw [follows_ask_bind] at h
  obtain ⟨currentState, rest, rfl, h⟩ := h
  cases currentState with
  | error e =>
    obtain ⟨rfl, rfl, -⟩ := follows_pure.mp h
    refine ⟨{ secrets := .ok secrets, adapter := .ok (some features), connect := .ok version
              discover := .ok caps, currentState := .error e }, rfl, rfl, rfl, ?_, ?_⟩
    · simp [Except.toOption, hcompile]
    · rw [verdict_of_stopped e.message (s := .currentState)
        (by simp [outcome, Stage.all, Except.toOption, hcompile]) (Or.inr (Or.inr (Or.inl rfl)))]
      rfl
  | ok observed =>
  dsimp only at h
  rw [follows_ask_bind] at h
  obtain ⟨diff, rest, rfl, h⟩ := h
  cases diff with
  | error e =>
    obtain ⟨rfl, rfl, -⟩ := follows_pure.mp h
    refine ⟨{ secrets := .ok secrets, adapter := .ok (some features), connect := .ok version
              discover := .ok caps, currentState := .ok observed, diff := .error e }, rfl, rfl, rfl, ?_, ?_⟩
    · simp [Except.toOption, hcompile]
    · rw [verdict_of_stopped e.message (s := .diff)
        (by simp [outcome, Stage.all, Except.toOption, hcompile]) (Or.inr (Or.inr (Or.inr rfl)))]
      rfl
  | ok changes =>
    obtain ⟨b, hsecrets, hadapter, hconnect, hdiscover, hstate, hdiff, hcalls, hout⟩ :=
      follows_applyChanges observed hcompile h
    refine ⟨b, hsecrets, hadapter, hconnect, ?_, hout⟩
    simp [hcalls, hsecrets, hconnect, hdiscover, hstate, hdiff, hcompile, Except.toOption]

theorem follows_connect (h : Follows (connect ctx m features secrets) cache xs out after) :
    ∃ b : Behaviour, b.secrets = .ok secrets ∧ b.adapter = .ok (some features) ∧
      quiet xs =
        b.callsFrom ctx m [.connect, .discover, .compile, .currentState, .diff, .apply] ∧
      out = .ok (b.verdict ctx m) := by
  rw [connect, follows_ask_bind] at h
  obtain ⟨connect, rest, rfl, h⟩ := h
  cases connect with
  | error e =>
    rw [follows_record_bind] at h
    obtain ⟨_, rfl, h⟩ := h
    obtain ⟨rfl, rfl, -⟩ := follows_pure.mp h
    refine ⟨{ secrets := .ok secrets, adapter := .ok (some features), connect := .error e },
      rfl, rfl, ?_, ?_⟩
    · simp [Except.toOption]
    · rw [verdict_of_stopped_connect e.message (by simp [outcome, Stage.all])]
      rfl
  | ok version =>
    obtain ⟨b, hsecrets, hadapter, hconnect, hcalls, hout⟩ := follows_converge h
    refine ⟨b, hsecrets, hadapter, ?_, hout⟩
    simp [hcalls, hsecrets, hconnect, Except.toOption]

end Stages

/-! ## 4. The whole pass -/

theorem quiet_of_reads {reads : List Exchange} (h : ∀ x ∈ reads, x.request.ReadsSecret) :
    quiet reads = reads := by
  rw [quiet, List.filter_eq_self]
  intro x hx
  obtain ⟨ns, name, hr⟩ := h x hx
  rw [isRecord, hr]
  rfl

/-- **A pass does what its behaviour calls for.**  It reads the secrets, then asks stage by stage,
and comes to the verdict of the behaviour; before its status is written it fails only with what
escapes from the lookup of its adapter. -/
theorem exists_behaviour {out : Except Failure Verdict}
    (h : Follows (active ctx m) cache xs out after) :
    ∃ (b : Behaviour) (reads : List Exchange) (mid : Cache),
      Follows (Secret.resolve m) cache reads b.secrets mid ∧
      quiet xs = reads ++ b.calls ctx m ∧ out = b.ending ctx m := by
  rw [active, follows_attempt_bind] at h
  obtain ⟨reads, rest, secrets, mid, rfl, hreads, h⟩ := h
  have hquiet : quiet reads = reads :=
    quiet_of_reads (Secret.asks_resolve m cache mid reads secrets hreads)
  cases secrets with
  | error e =>
    -- only a failure of a secret itself is recorded
    have hrest : quiet rest = [] ∧
        out = .ok (ctx.unready m .secretResolutionFailed e.message e.message) := by
      cases e with
      | secret e =>
        dsimp only at h
        rw [follows_record_bind] at h
        obtain ⟨_, rfl, h⟩ := h
        obtain ⟨rfl, rfl, -⟩ := follows_pure.mp h
        exact ⟨rfl, rfl⟩
      | _ =>
        obtain ⟨rfl, rfl, -⟩ := follows_pure.mp h
        exact ⟨rfl, rfl⟩
    refine ⟨{ secrets := .error e }, reads, mid, hreads, ?_, ?_⟩
    · rw [quiet_append, hquiet, hrest.1]
      simp [Behaviour.calls, Stage.all]
    · rw [hrest.2, Behaviour.ending_of_caught _ _ _ rfl,
        Behaviour.verdict_of_stopped_secrets e.message (by simp [Behaviour.outcome, Stage.all])]
  | ok secrets =>
    dsimp only at h
    rw [findAdapter, bind_assoc, follows_ask_bind] at h
    obtain ⟨adapter, rest, rfl, h⟩ := h
    rw [follows_settle_bind] at h
    cases adapter with
    | error e =>
      obtain ⟨rfl, rfl, -⟩ := h
      refine ⟨{ secrets := .ok secrets, adapter := .error e }, reads, mid, hreads, ?_, rfl⟩
      rw [quiet_append, hquiet]
      simp [Behaviour.calls, Stage.all]
    | ok adapter =>
    cases adapter with
    | none =>
      obtain ⟨rfl, rfl, -⟩ := follows_pure.mp h
      refine ⟨{ secrets := .ok secrets }, reads, mid, hreads, ?_, ?_⟩
      · rw [quiet_append, hquiet]
        simp [Behaviour.calls, Stage.all]
      · rw [Behaviour.ending_of_caught _ _ _ rfl,
          Behaviour.verdict_of_stopped_lookup (m.service ++ " adapter not registered")
            (by simp [Behaviour.outcome, Stage.all])]
    | some features =>
      obtain ⟨b, hsecrets, hadapter, hcalls, hout⟩ := follows_connect h
      have hcaught : b.escape? = none := by
        rw [Behaviour.escape?, hsecrets, hadapter]
      refine ⟨b, reads, mid, hsecrets ▸ hreads, ?_, ?_⟩
      · rw [quiet_append, hquiet]
        simp [Behaviour.calls, Stage.all, hcalls, hsecrets, hadapter]
      · rw [hout, Behaviour.ending_of_caught _ _ _ hcaught]

end Steward.Reconcile
