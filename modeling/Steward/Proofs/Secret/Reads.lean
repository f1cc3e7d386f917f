import Steward.Proofs.Pass.Addressee
import Steward.Secret.Resolution

/-!
# Resolving secrets only reads

Whatever the references of a resource are, and whatever is replied, resolving them asks for secrets
and for nothing else.  It fails for a reason of its own, or with the failure of a reading, which
then is the last one.
-/

namespace Steward

open Pass

/-- The request reads a secret. -/
def Pass.Request.ReadsSecret (r : Request) : Prop := ∃ ns name, r = .getSecret ns name

theorem Pass.Request.ReadsSecret.addressee {r : Request} (h : r.ReadsSecret) :
    r.addressee = .secrets := by
  obtain ⟨ns, name, rfl⟩ := h
  rfl

theorem Pass.Request.ReadsSecret.sparesStore {r : Request} (h : r.ReadsSecret) : r.SparesStore :=
  sparesStore_of_addressee (by rw [h.addressee]; exact Addressee.noConfusion)

/-- The failure is one of resolving secrets. -/
def Failure.OfSecret (e : Failure) : Prop := ∃ s, e = .secret s

namespace Secret

/-! ## 1. What is asked -/

theorem asks_fetch (ns name purpose : String) : Asks Request.ReadsSecret (fetch ns name purpose) := by
  refine asks_cache.bind fun cache => ?_
  split
  · exact asks_pure _
  · have hget : Asks Request.ReadsSecret (getSecret ns name) := asks_ask_settle ⟨ns, name, rfl⟩
    refine hget.bind fun found => ?_
    split
    · exact asks_throw _
    · exact (asks_remember _ _).bind fun _ => asks_pure _

theorem asks_value (ns name key purpose : String) :
    Asks Request.ReadsSecret (value ns name key purpose) := by
  refine (asks_fetch ns name purpose).bind fun data => ?_
  split
  · exact asks_throw _
  · exact asks_settle _

theorem asks_values (ns name purpose : String) :
    Asks Request.ReadsSecret (values ns name purpose) := by
  refine (asks_fetch ns name purpose).bind fun data => ?_
  induction data with
  | nil => exact asks_pure _
  | cons entry rest ih =>
    rw [List.mapM_cons]
    exact ((asks_settle _).bind fun _ => asks_pure _).bind fun _ => ih.bind fun _ => asks_pure _

theorem asks_entries (ns : String) (u : Use) : Asks Request.ReadsSecret (entries ns u) := by
  cases u with
  | connection ref => exact (asks_value _ _ _ _).bind fun _ => asks_pure _
  | key ref default purpose => exact (asks_value _ _ _ _).bind fun _ => asks_pure _
  | credentials ref purpose =>
    exact (asks_value _ _ _ _).bind fun _ => (asks_value _ _ _ _).bind fun _ => asks_pure _
  | whole ref purpose => exact (asks_values _ _ _).bind fun _ => asks_pure _

theorem asks_resolveUses (ns : String) (m : SecretMap) (uses : List Use) :
    Asks Request.ReadsSecret (resolveUses ns m uses) := by
  induction uses generalizing m with
  | nil => exact asks_pure m
  | cons u rest ih => exact (asks_entries ns u).bind fun es => ih _

theorem asks_resolve (m : Managed) : Asks Request.ReadsSecret (resolve m) :=
  asks_resolveUses m.ns [] (uses m.declared)

theorem asks_firstUsable (m : Managed) (failures : List String)
    (candidates : List (String × String)) :
    Asks Request.ReadsSecret (firstUsable m failures candidates) := by
  induction candidates generalizing failures with
  | nil => exact asks_throw _
  | cons candidate rest ih =>
    refine (asks_value _ _ _ _).attempt.bind fun found => ?_
    split
    · exact asks_ite (ih failures) (asks_pure _)
    · exact ih _
    · exact asks_throw _

theorem asks_registrationKey (m : Managed) : Asks Request.ReadsSecret (registrationKey m) :=
  asks_firstUsable m [] (registrationCandidates m)

/-! ## 2. What fails -/

section Failing

variable {ns name key purpose : String} {cache after : Cache} {xs : List Exchange} {e : Failure}

/-- A secret cannot be had because it is missing, or because the store fails to read it. -/
theorem failed_fetch {out : Except Failure SecretData}
    (h : Follows (fetch ns name purpose) cache xs out after) (hout : out = .error e) :
    e.OfSecret ∨ xs = [⟨.getSecret ns name, .error e⟩] := by
  rw [fetch, follows_cache_bind] at h
  split at h
  · have hok := (follows_pure.mp h).2.1
    rw [hout] at hok
    cases hok
  · rcases follows_bind.mp h with ⟨ys, zs, found, mid, -, -, hfound⟩ | ⟨e', hout', hget⟩
    · cases found with
      | none =>
        have hmissing := (follows_throw.mp hfound).2.1
        rw [hout, Except.error.injEq] at hmissing
        exact Or.inl ⟨_, hmissing⟩
      | some data =>
        dsimp only at hfound
        rw [follows_remember_bind] at hfound
        have hok := (follows_pure.mp hfound).2.1
        rw [hout] at hok
        cases hok
    · obtain ⟨reply, rfl, hreply, -⟩ := follows_ask_settle.mp hget
      rw [hout, Except.error.injEq] at hout'
      rw [← hreply, hout']
      exact Or.inr rfl

theorem failed_value {out : Except Failure String}
    (h : Follows (value ns name key purpose) cache xs out after) (hout : out = .error e) :
    e.OfSecret ∨ xs = [⟨.getSecret ns name, .error e⟩] := by
  rcases follows_bind.mp h with ⟨ys, zs, data, mid, -, -, hdata⟩ | ⟨e', hout', hfetch⟩
  · refine Or.inl ?_
    split at hdata
    · have hnoKey := (follows_throw.mp hdata).2.1
      rw [hout, Except.error.injEq] at hnoKey
      exact ⟨_, hnoKey⟩
    · rename_i stored _
      have hdecode := (follows_settle.mp hdata).2.1
      rw [hout] at hdecode
      cases hstored : decode stored with
      | ok v =>
        rw [hstored] at hdecode
        cases hdecode
      | error s =>
        rw [hstored] at hdecode
        cases hdecode
        exact ⟨s, rfl⟩
  · rw [hout, Except.error.injEq] at hout'
    exact failed_fetch hfetch (by rw [hout'])

/-- The key of a connection cannot be had for a reason of resolving it, or because the store fails
to read its secret. -/
theorem failed_resolveConnection {c : Spec.Connection} {out : Except Failure SecretMap}
    (h : Follows (resolveConnection ns c) cache xs out after) (hout : out = .error e) :
    e.OfSecret ∨ ∃ ref, c.apiKeyRef = some ref ∧ xs = [⟨.getSecret ns ref.name, .error e⟩] := by
  rw [resolveConnection, connectionUses] at h
  cases href : c.apiKeyRef with
  | none =>
    rw [href] at h
    have hok := (follows_pure.mp h).2.1
    rw [hout] at hok
    cases hok
  | some ref =>
    rw [href] at h
    rcases follows_bind.mp h with ⟨ys, zs, es, mid, -, -, hend⟩ | ⟨e', hout', hentries⟩
    · have hok := (follows_pure.mp hend).2.1
      rw [hout] at hok
      cases hok
    · rw [hout, Except.error.injEq] at hout'
      subst hout'
      rcases follows_bind.mp hentries with ⟨ys, zs, v, mid, -, -, hend⟩ | ⟨e', he', hvalue⟩
      · have hok := (follows_pure.mp hend).2.1
        cases hok
      · rw [Except.error.injEq] at he'
        exact (failed_value hvalue (by rw [he'])).imp_right fun hxs => ⟨ref, rfl, hxs⟩

end Failing

end Secret

end Steward
