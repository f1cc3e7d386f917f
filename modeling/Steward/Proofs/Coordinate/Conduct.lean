import Steward.Proofs.Coordinate.Turns

/-!
# Whole coordination passes

A coordination pass ends before it lists anything, or it goes through all kinds and gives each
service that it lists a turn (`Conducts`).  Whatever is replied, there is no third way, unless a
duration without bounds breaks the pass off.
-/

namespace Steward.Coordinate

open Pass

variable {ctx : Context} {r : Resource} {xs : List Exchange} {out : Except Failure Coordination}

/-- What a pass over the resource `r` does that comes to list services, for the aggregator `a` and
with this client. -/
structure Conducts (ctx : Context) (r : Resource) (a : Managed) (client : AggregatorClient)
    (xs : List Exchange) (surveys : List Survey) (result : Coordination) : Prop where
  aggregator : Managed.ofResource r = .ok a
  kinds : surveys.map (·.kind) = ManagerKind.all
  complete : ∀ s ∈ surveys, s.Complete
  asks : ∃ reads mid after,
    Follows (AggregatorClient.forManaged a ctx.settings.httpTimeout) [] reads (.ok client) mid ∧
    xs = reads ++ surveys.flatMap (Survey.exchanges a) ∧
    Chain (Goes ctx a client) mid (surveys.flatMap (·.turns)) after
  result : result = ctx.schedule
    (counted {} (surveys.flatMap (·.turns)) (surveys.flatMap Survey.errors))

/-- What a pass over the resource `r` does that ends with a result. -/
inductive Passes (ctx : Context) (r : Resource) (xs : List Exchange) :
    List Survey → Coordination → Prop where
  /-- It ends before it lists anything. -/
  | idle {result : Coordination} :
      (∀ x ∈ xs, x.request.ReadsSecret) → result.processed = 0 → Passes ctx r xs [] result
  | conducted {a : Managed} {client : AggregatorClient} {surveys : List Survey}
      {result : Coordination} :
      Conducts ctx r a client xs surveys result → Passes ctx r xs surveys result

/-- Something that the pass has read breaks it off. -/
def BrokenOff (r : Resource) (xs : List Exchange) : Prop :=
  BreaksOff r ∨ ∃ kind ns rs, ⟨.listResources kind ns, .ok rs⟩ ∈ xs ∧ ∃ q ∈ rs, BreaksOff q

theorem conducts_of_follows {a : Managed} {client : AggregatorClient} {reads rest : List Exchange}
    {before after : Cache} (ha : Managed.ofResource r = .ok a)
    (hreads : Follows (AggregatorClient.forManaged a ctx.settings.httpTimeout) [] reads (.ok client)
      before)
    (h : Follows (do return ctx.schedule (← kinds ctx a client {} ManagerKind.all)) before rest out
      after) :
    (out = .error (.managed .unbounded) ∧ BrokenOff r (reads ++ rest)) ∨
    ∃ surveys result, out = .ok result ∧
      Conducts ctx r a client (reads ++ rest) surveys result := by
  rcases Or.symm (follows_bind.mp h) with
    ⟨e, rfl, hfailed⟩ | ⟨ys, zs, total, mid, rfl, hkinds, hend⟩
  · rcases follows_kinds hfailed with ⟨⟨kind, ns, rs, hmem, hbreaks⟩, hout⟩ | ⟨_, _, _, _, _, hout⟩
    · rw [Except.error.inj hout]
      exact Or.inl ⟨rfl, Or.inr ⟨kind, ns, rs, List.mem_append_right _ hmem, hbreaks⟩⟩
    · cases hout
  rcases follows_kinds hkinds with ⟨-, hout⟩ | ⟨surveys, hall, hcomplete, rfl, hchain, htotal⟩
  · cases hout
  obtain ⟨rfl, rfl, rfl⟩ := follows_pure.mp hend
  rw [Except.ok.injEq] at htotal
  rw [List.append_nil]
  exact Or.inr ⟨surveys, _, rfl, ha, hall, hcomplete, ⟨reads, before, _, hreads, rfl, hchain⟩,
    by rw [htotal]⟩

section Conducts

variable {a : Managed} {client : AggregatorClient} {surveys : List Survey} {result : Coordination}
  {t : Turn}

/-- What is asked in a turn stands together in the pass. -/
theorem Conducts.exchanges_infix (h : Conducts ctx r a client xs surveys result)
    (ht : t ∈ surveys.flatMap (·.turns)) : t.exchanges <:+: xs := by
  obtain ⟨reads, mid, after, -, rfl, -⟩ := h.asks
  obtain ⟨s, hs, ht⟩ := List.mem_flatMap.mp ht
  have hsurvey : s.exchanges a <:+: surveys.flatMap (Survey.exchanges a) :=
    List.infix_of_mem_flatten (List.mem_map_of_mem hs)
  have hturn : t.exchanges <:+: s.turns.flatMap Turn.exchanges :=
    List.infix_of_mem_flatten (List.mem_map_of_mem ht)
  have hturns : s.turns.flatMap Turn.exchanges <:+: s.exchanges a :=
    (List.suffix_cons _ _).isInfix
  exact ((hturn.trans hturns).trans hsurvey).trans (List.suffix_append reads _).isInfix

/-- A pass without errors had none in any turn. -/
theorem Conducts.errors_eq_nil (h : Conducts ctx r a client xs surveys result)
    (hok : result.errors = []) (ht : t ∈ surveys.flatMap (·.turns)) : t.errors = [] := by
  rw [h.result] at hok
  have herrors : surveys.flatMap Survey.errors = [] := hok
  obtain ⟨s, hs, ht⟩ := List.mem_flatMap.mp ht
  have hsurvey := List.flatMap_eq_nil_iff.mp herrors s hs
  rw [Survey.errors] at hsurvey
  cases hlisting : s.listing with
  | ok rs =>
    rw [hlisting] at hsurvey
    exact List.flatMap_eq_nil_iff.mp hsurvey t ht
  | error e =>
    rw [hlisting] at hsurvey
    cases hsurvey

end Conducts

/-- **Every coordination pass.**  Whatever is replied, a pass ends with a result, unless something
that it has read breaks it off. -/
theorem passes_of_follows (h : Program.Follows (coordinate ctx r).program xs out) :
    (out = .error (.managed .unbounded) ∧ BrokenOff r xs) ∨
    ∃ surveys result, out = .ok result ∧ Passes ctx r xs surveys result := by
  obtain ⟨after, h⟩ := follows_program.mp h
  have hidle {result : Coordination} (hprocessed : result.processed = 0)
      (hpure : Follows (pure result) [] xs out after) :
      ∃ surveys result, out = .ok result ∧ Passes ctx r xs surveys result := by
    obtain ⟨rfl, rfl, -⟩ := follows_pure.mp hpure
    exact ⟨[], _, rfl, .idle (List.forall_mem_nil _) hprocessed⟩
  rw [coordinate] at h
  split at h
  · exact Or.inr (hidle rfl h)
  rename_i hlive
  rw [Bool.not_eq_true] at hlive
  split at h
  · rename_i hunbounded
    exact Or.inl ⟨(follows_throw.mp h).2.1, Or.inl ⟨hlive, hunbounded⟩⟩
  · exact Or.inr (hidle rfl h)
  rename_i a ha
  split at h
  · exact Or.inr (hidle rfl h)
  obtain ⟨reads, rest, built, mid, rfl, hreads, hrest⟩ := follows_attempt_bind.mp h
  cases built with
  | error e =>
    obtain ⟨rfl, rfl, -⟩ := follows_pure.mp hrest
    rw [List.append_nil]
    exact Or.inr ⟨[], _, rfl, .idle (AggregatorClient.asks_forManaged a _ _ _ _ _ hreads) rfl⟩
  | ok client =>
    rcases conducts_of_follows ha hreads hrest with hbroken | ⟨surveys, result, hout, hconducts⟩
    · exact Or.inl hbroken
    · exact Or.inr ⟨surveys, result, hout, .conducted hconducts⟩

end Steward.Coordinate
