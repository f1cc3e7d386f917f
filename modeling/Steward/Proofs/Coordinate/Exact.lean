import Steward.Proofs.Coordinate.Listed
import Steward.Proofs.Coordinate.Turns

/-!
# Every registration is decided

A coordination pass (`_coordinate`) over an aggregator that is connected and can be reached takes
every service of its namespace in turn, decides (`_process`) about each that is not being deleted
and can be read (`wrap`), and writes what there is to record.  Its result counts the decisions.  Any
other pass writes nothing.

A service with a duration without bounds, which `parse_duration` fails at, is the exception: it
breaks the pass off, and the services that come after it are not decided about.
-/

namespace Steward.Coordinate

open Pass

variable {ctx : Context} {r : Resource} {xs : List Exchange} {out : Except Failure Coordination}

/-! ## 1. The pass -/

/-- What a pass does that has a client for its aggregator, and has read the secrets `before`: kind
by kind all services take their turns, and the result counts them. -/
def Covers (ctx : Context) (a : Managed) (client : AggregatorClient) (before : Cache)
    (xs : List Exchange) (out : Except Failure Coordination) : Prop :=
  ∃ (rounds : List Round) (after : Cache),
    rounds.map (·.kind) = ManagerKind.all ∧
    (∀ round ∈ rounds, round.turns.map (·.resource) = round.listed) ∧
    xs = rounds.flatMap (Round.exchanges a) ∧
    Chain (Takes ctx a client) before (rounds.flatMap (·.turns)) after ∧
    out = .ok (ctx.schedule (tally {} (rounds.flatMap (·.turns))))

/-- What a pass over the resource `r` does. -/
structure Coordinates (ctx : Context) (r : Resource) (xs : List Exchange)
    (out : Except Failure Coordination) : Prop where
  /-- A service that the aggregator lists itself is one of its document, where the case of types
  does not count. -/
  listed : r.kind = Kind.aggregatorName → ∀ a, Managed.ofResource r = .ok a →
    ∀ m, isPushed a m = true ↔ Lists r.spec m
  /-- An aggregator that is being deleted, cannot be read or is not connected: nothing is asked. -/
  idle : (r.beingDeleted = true ∨
    ∀ a, Managed.ofResource r = .ok a → a.status.connected = false) → xs = []
  /-- For any other, a client is built, which only reads secrets; if this fails, so does the pass. -/
  active : ∀ a, r.beingDeleted = false → Managed.ofResource r = .ok a → a.status.connected = true →
    ∃ reads rest built mid, xs = reads ++ rest ∧ (∀ x ∈ reads, x.request.ReadsSecret) ∧
      Follows (AggregatorClient.forManaged a ctx.settings.httpTimeout) [] reads built mid ∧
      match built with
      | .error e => rest = [] ∧ out = .ok (ctx.failed e.message)
      | .ok client => Covers ctx a client mid rest out

/-- A pass that has its client covers all services. -/
theorem covers_of_follows {a : Managed} {client : AggregatorClient} {before after : Cache}
    (hgranted : Granted xs) (hbounded : Bounded xs)
    (h : Follows (do return ctx.schedule (← kinds ctx a client {} ManagerKind.all)) before xs out
      after) : Covers ctx a client before xs out := by
  rcases Or.symm (follows_bind.mp h) with
    ⟨e, -, hfailed⟩ | ⟨ys, zs, counted, mid, rfl, hkinds, hend⟩
  · obtain ⟨rounds, -, -, -, -, hout⟩ := follows_rounds hgranted hbounded hfailed
    cases hout
  obtain ⟨rfl, rfl, rfl⟩ := follows_pure.mp hend
  rw [List.append_nil] at hgranted hbounded ⊢
  obtain ⟨rounds, hall, hrounds, hxs, hchain, hcounted⟩ := follows_rounds hgranted hbounded hkinds
  rw [Except.ok.injEq] at hcounted
  exact ⟨rounds, _, hall, hrounds, hxs, hchain, by rw [hcounted]⟩

/-- **A coordination pass decides every registration.**  If all listings and status writes succeed
and no service has a duration without bounds, each service that is not being deleted and can be read
is decided about, whatever the aggregator and the secrets are like. -/
theorem registrations_decided (h : Program.Follows (coordinate ctx r).program xs out)
    (hgranted : Granted xs) (hbounded : Bounded xs) : Coordinates ctx r xs out := by
  obtain ⟨after, h⟩ := follows_program.mp h
  have hlisted (hkind : r.kind = Kind.aggregatorName) (a : Managed)
      (ha : Managed.ofResource r = .ok a) (m : Managed) : isPushed a m = true ↔ Lists r.spec m :=
    isPushed_iff hkind ha m
  rw [coordinate] at h
  split at h
  · rename_i hdeleted
    refine ⟨hlisted, fun _ => (follows_pure.mp h).1, fun a hlive => ?_⟩
    rw [hdeleted] at hlive
    cases hlive
  rename_i hlive
  cases hread : Managed.ofResource r with
  | error e =>
    rw [hread] at h
    refine ⟨hlisted, fun _ => ?_, fun a _ ha => by cases hread.symm.trans ha⟩
    cases e with
    | unbounded => exact (follows_throw.mp h).1
    | _ => exact (follows_pure.mp h).1
  | ok a =>
    rw [hread] at h
    have hthis {b : Managed} (hb : Managed.ofResource r = .ok b) : b = a :=
      Except.ok.inj (hb.symm.trans hread)
    dsimp only at h
    split at h
    · rename_i hconnected
      rw [Bool.not_eq_true'] at hconnected
      refine ⟨hlisted, fun _ => (follows_pure.mp h).1, fun b _ hb hon => ?_⟩
      rw [hthis hb, hconnected] at hon
      cases hon
    rename_i hconnected
    rw [Bool.not_eq_true', Bool.not_eq_false] at hconnected
    refine ⟨hlisted, fun hidle => ?_, fun b _ hb _ => ?_⟩
    · rcases hidle with hdeleted | hoff
      · exact absurd hdeleted hlive
      · rw [hoff a hread] at hconnected
        cases hconnected
    rw [hthis hb]
    obtain ⟨reads, rest, built, mid, rfl, hreads, hrest⟩ := follows_attempt_bind.mp h
    refine ⟨reads, rest, built, mid, rfl,
      AggregatorClient.asks_forManaged a _ _ _ _ _ hreads, hreads, ?_⟩
    cases built with
    | error e =>
      obtain ⟨rfl, rfl, -⟩ := follows_pure.mp hrest
      exact ⟨rfl, rfl⟩
    | ok client =>
      have hsub := List.subset_append_right reads rest
      exact covers_of_follows (hgranted.of_subset hsub) (hbounded.of_subset hsub) hrest

/-- The aggregator does not answer, and the service is on record as not registered. -/
theorem registrations_decided_films :
    let ctx : Context := ⟨{}, ⟨2024, 1, 1, 0, 0, 0, 0, some 0⟩⟩
    let films : Resource :=
      { kind := "RadarrConfig", name := "films"
        spec := [("connection", .object [("url", .string "http://films")]),
          ("indexers", .object [("prowlarrRef", .object [("name", .string "main")])])] }
    let key : Json := .object [("name", .string "key")]
    let main : Resource :=
      { kind := "ProwlarrConfig", name := "main", status := [("connected", .bool true)]
        spec := [("connection", .object [("url", .string "http://main"), ("apiKeySecretRef", key)])] }
    let secret : Except Failure (Option SecretData) := .ok (some [("apiKey", "a2V5")])
    ∃ lookup event document out,
      let xs : List Exchange :=
        [⟨.getSecret "default" "key", secret⟩, ⟨.listResources "SonarrConfig" "default", .ok []⟩,
          ⟨.listResources "RadarrConfig" "default", .ok [films]⟩,
          ⟨.getSecret "default" "radarr-api-key", secret⟩,
          ⟨.http lookup, .error (.transport "refused")⟩, ⟨.record event, ()⟩,
          ⟨.updateStatus films document, .ok films⟩,
          ⟨.listResources "LidarrConfig" "default", .ok []⟩,
          ⟨.listResources "ReadarrConfig" "default", .ok []⟩]
      Program.Follows (coordinate ctx main).program xs out ∧ Granted xs ∧ Bounded xs ∧
        Coordinates ctx main xs out := by
  intro ctx films key main secret
  obtain ⟨lookup, event, document, out, hfollows⟩ : ∃ lookup event document out,
      Program.Follows (coordinate ctx main).program
        [⟨.getSecret "default" "key", secret⟩, ⟨.listResources "SonarrConfig" "default", .ok []⟩,
          ⟨.listResources "RadarrConfig" "default", .ok [films]⟩,
          ⟨.getSecret "default" "radarr-api-key", secret⟩,
          ⟨.http lookup, .error (.transport "refused")⟩, ⟨.record event, ()⟩,
          ⟨.updateStatus films document, .ok films⟩,
          ⟨.listResources "LidarrConfig" "default", .ok []⟩,
          ⟨.listResources "ReadarrConfig" "default", .ok []⟩] out := by
    dsimp only [ctx, films, key, main, secret]
    exact ⟨_, _, _, _, .ask (.ask (.ask (.ask (.ask (.ask (.ask (.ask (.ask (.done _)))))))))⟩
  refine ⟨lookup, event, document, out, hfollows, ?granted, ?bounded,
    registrations_decided hfollows ?granted ?bounded⟩
  case granted => constructor <;> intro _ _ _ h <;> simp at h
  case bounded =>
    -- only the films are listed, and they can be read
    intro kind ns rs hlisted r hr _ hunbounded
    have hrs : rs = [] ∨ rs = [films] := by
      simp at hlisted
      rcases hlisted with ⟨-, h⟩ | ⟨-, h⟩ | ⟨-, h⟩ | ⟨-, h⟩
      · exact Or.inl h
      · exact Or.inr h
      · exact Or.inl h
      · exact Or.inl h
    rcases hrs with rfl | rfl
    · cases hr
    · rw [List.mem_singleton] at hr
      subst hr
      cases hunbounded

/-- The timeout of one series service has no bounds, and the other one, which refers to the
aggregator, is not decided about. -/
theorem undecided_shows :
    ¬ ∀ (ctx : Context) (r q : Resource) (a m : Managed) (ref : Spec.AggregatorRef)
        (rs : List Resource) (kind ns : String) (xs : List Exchange)
        (out : Except Failure Coordination),
      Program.Follows (coordinate ctx r).program xs out → Granted xs →
      r.beingDeleted = false → Managed.ofResource r = .ok a → a.status.connected = true →
      ⟨.listResources kind ns, .ok rs⟩ ∈ xs → q ∈ rs → q.beingDeleted = false →
      Managed.ofResource q = .ok m → m.declared.aggregatorRef = some ref → ref.name = a.name →
      ∃ document reply, ⟨.updateStatus q document, reply⟩ ∈ xs := by
  intro h
  let ctx : Context := ⟨{}, ⟨2024, 1, 1, 0, 0, 0, 0, some 0⟩⟩
  let infinity : Binary64 := ⟨0x7FF0000000000000⟩
  let endless : Resource :=
    { kind := "SonarrConfig", name := "endless"
      spec := [("connection",
        .object [("url", .string "http://endless"), ("timeout", .float infinity)])] }
  let shows : Resource :=
    { kind := "SonarrConfig", name := "shows"
      spec := [("connection", .object [("url", .string "http://shows")]),
        ("indexers", .object [("prowlarrRef", .object [("name", .string "main")])])] }
  let key : Json := .object [("name", .string "key")]
  let main : Resource :=
    { kind := "ProwlarrConfig", name := "main", status := [("connected", .bool true)]
      spec := [("connection", .object [("url", .string "http://main"), ("apiKeySecretRef", key)])] }
  have hfollows : Program.Follows (coordinate ctx main).program
      [⟨.getSecret "default" "key", .ok (some [("apiKey", "a2V5")])⟩,
        ⟨.listResources "SonarrConfig" "default", .ok [endless, shows]⟩]
      (.error (.managed .unbounded)) := by
    dsimp only [ctx, infinity, endless, shows, key, main]
    exact .ask (.ask (.done _))
  have hgranted : Granted
      [⟨.getSecret "default" "key", .ok (some [("apiKey", "a2V5")])⟩,
        ⟨.listResources "SonarrConfig" "default", .ok [endless, shows]⟩] := by
    constructor <;> intro _ _ _ hmem <;> simp at hmem
  obtain ⟨document, reply, hmem⟩ := h ctx main shows _ _ _ [endless, shows] "SonarrConfig" "default"
    _ _ hfollows hgranted rfl rfl rfl (List.mem_cons_of_mem _ List.mem_cons_self)
    (List.mem_cons_of_mem _ List.mem_cons_self) rfl rfl rfl rfl
  simp at hmem

end Steward.Coordinate
