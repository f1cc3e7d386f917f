import Steward.Proofs.Pass.Trace

/-!
# What holds of the secrets that were read

A pass hands on the secrets that it has read.  What holds of them may be kept whatever is replied
(`Keeps`), and where all replies are of one kind a pass may have no choice what it comes to
(`Yields`).  Both are carried from the parts of a pass to the whole.
-/

namespace Steward.Pass

variable {α β : Type} {P : Exchange → Prop} {I : Cache → Prop}

/-! ## 1. What is kept -/

/-- Where all replies are so, what holds of the secrets before the pass holds after it. -/
def Keeps (P : Exchange → Prop) (I : Cache → Prop) (p : Pass α) : Prop :=
  ∀ (cache after : Cache) (xs : List Exchange) (out : Except Failure α),
    Follows p cache xs out after → (∀ x ∈ xs, P x) → I cache → I after

theorem keeps_settle (r : Except Failure α) : Keeps P I (settle r) := by
  intro cache after xs out h _ hcache
  rwa [(follows_settle.mp h).2.2]

theorem keeps_pure (a : α) : Keeps P I (pure a : Pass α) := keeps_settle (.ok a)

theorem keeps_throw (e : Failure) : Keeps P I (throw e : Pass α) := keeps_settle (.error e)

theorem keeps_ask (r : Request) : Keeps P I (ask r) := by
  intro cache after xs out h _ hcache
  obtain ⟨reply, -, -, rfl⟩ := follows_ask.mp h
  exact hcache

theorem Keeps.bind {p : Pass α} {f : α → Pass β} (hp : Keeps P I p) (hf : ∀ a, Keeps P I (f a)) :
    Keeps P I (p >>= f) := by
  intro cache after xs out h hxs hcache
  rcases follows_bind.mp h with ⟨ys, zs, a, mid, rfl, hys, hzs⟩ | ⟨e, -, hfailed⟩
  · rw [List.forall_mem_append] at hxs
    exact hf a _ _ _ _ hzs hxs.2 (hp _ _ _ _ hys hxs.1 hcache)
  · exact hp _ _ _ _ hfailed hxs hcache

theorem Keeps.attempt_bind {p : Pass α} {f : Except Failure α → Pass β} (hp : Keeps P I p)
    (hf : ∀ r, Keeps P I (f r)) : Keeps P I (attempt p >>= f) := by
  intro cache after xs out h hxs hcache
  obtain ⟨ys, zs, r, mid, rfl, hys, hzs⟩ := follows_attempt_bind.mp h
  rw [List.forall_mem_append] at hxs
  exact hf r _ _ _ _ hzs hxs.2 (hp _ _ _ _ hys hxs.1 hcache)

theorem keeps_ite {c : Prop} [Decidable c] {p q : Pass α} (hp : Keeps P I p) (hq : Keeps P I q) :
    Keeps P I (if c then p else q) := by
  split
  · exact hp
  · exact hq

/-! ## 2. What a pass comes to -/

/-- Where all replies are so, the pass comes to this outcome, and what holds of the secrets is
kept. -/
def Yields (P : Exchange → Prop) (I : Cache → Prop) (p : Pass α) (r : Except Failure α) : Prop :=
  ∀ (cache after : Cache) (xs : List Exchange) (out : Except Failure α),
    Follows p cache xs out after → (∀ x ∈ xs, P x) → I cache → out = r ∧ I after

theorem Yields.keeps {p : Pass α} {r : Except Failure α} (h : Yields P I p r) : Keeps P I p :=
  fun cache after xs out hp hxs hcache => (h cache after xs out hp hxs hcache).2

theorem yields_settle (r : Except Failure α) : Yields P I (settle r) r := by
  intro cache after xs out h _ hcache
  obtain ⟨-, rfl, rfl⟩ := follows_settle.mp h
  exact ⟨rfl, hcache⟩

theorem yields_pure (a : α) : Yields P I (pure a) (.ok a) := yields_settle (.ok a)

theorem yields_throw (e : Failure) : Yields P I (throw e : Pass α) (.error e) :=
  yields_settle (.error e)

section

variable {p : Pass α} {r : Except Failure β}

theorem Yields.bind_ok {f : α → Pass β} {a : α} (hp : Yields P I p (.ok a))
    (hf : Yields P I (f a) r) : Yields P I (p >>= f) r := by
  intro cache after xs out h hxs hcache
  rcases follows_bind.mp h with ⟨ys, zs, b, mid, rfl, hys, hzs⟩ | ⟨e, -, hfailed⟩
  · rw [List.forall_mem_append] at hxs
    obtain ⟨hb, hmid⟩ := hp _ _ _ _ hys hxs.1 hcache
    cases hb
    exact hf _ _ _ _ hzs hxs.2 hmid
  · cases (hp _ _ _ _ hfailed hxs hcache).1

theorem Yields.bind_error {f : α → Pass β} {e : Failure} (hp : Yields P I p (.error e)) :
    Yields P I (p >>= f) (.error e) := by
  intro cache after xs out h hxs hcache
  rcases follows_bind.mp h with ⟨ys, zs, b, mid, rfl, hys, -⟩ | ⟨e', rfl, hfailed⟩
  · rw [List.forall_mem_append] at hxs
    cases (hp _ _ _ _ hys hxs.1 hcache).1
  · obtain ⟨he, hafter⟩ := hp _ _ _ _ hfailed hxs hcache
    cases he
    exact ⟨rfl, hafter⟩

theorem Yields.bind {s : Except Failure α} {f : α → Pass β} {g : α → Except Failure β}
    (hp : Yields P I p s) (hf : ∀ a, Yields P I (f a) (g a)) : Yields P I (p >>= f) (s >>= g) := by
  cases s with
  | ok a => exact hp.bind_ok (hf a)
  | error e => exact hp.bind_error

theorem Yields.bind_pure {s : Except Failure α} (hp : Yields P I p s) (g : α → β) :
    Yields P I (p >>= fun a => pure (g a)) (s.map g) := by
  cases s with
  | ok a => exact hp.bind_ok (yields_pure _)
  | error e => exact hp.bind_error

theorem Yields.attempt_bind {f : Except Failure α → Pass β} {s : Except Failure α}
    (hp : Yields P I p s) (hf : Yields P I (f s) r) : Yields P I (attempt p >>= f) r := by
  intro cache after xs out h hxs hcache
  obtain ⟨ys, zs, t, mid, rfl, hys, hzs⟩ := follows_attempt_bind.mp h
  rw [List.forall_mem_append] at hxs
  obtain ⟨rfl, hmid⟩ := hp _ _ _ _ hys hxs.1 hcache
  exact hf _ _ _ _ hzs hxs.2 hmid

end

/-- A list is gone through item by item. -/
theorem yields_mapM {f : α → Pass β} {g : α → Except Failure β} (h : ∀ a, Yields P I (f a) (g a))
    (xs : List α) : Yields P I (xs.mapM f) (xs.mapM g) := by
  induction xs with
  | nil => exact yields_pure []
  | cons x xs ih =>
    rw [List.mapM_cons, List.mapM_cons]
    exact (h x).bind fun y => ih.bind fun ys => yields_pure _

end Steward.Pass
