import Steward.Proofs.Pass.Trace

/-!
# Requests in the light of earlier replies

Some requests are only right because of what was replied before, in the same pass or in one that it
is part of: a resource is written as it was read.  `AsksKnowing` says so of a pass, and it composes
as `Asks` does, where each part of a pass is told what the parts before it were.
-/

namespace Steward.Pass

variable {α β : Type}

/-- The resources that a reply brings. -/
def brought : Exchange → List Resource
  | ⟨.getResource .., .ok r⟩ => r.toList
  | ⟨.listResources .., .ok rs⟩ => rs
  | _ => []

/-- The resource was read. -/
def WasRead (told : List Exchange) (r : Resource) : Prop := ∃ x ∈ told, r ∈ brought x

theorem WasRead.append {told : List Exchange} {r : Resource} (h : WasRead told r)
    (more : List Exchange) : WasRead (told ++ more) r := by
  obtain ⟨x, hx, hr⟩ := h
  exact ⟨x, List.mem_append_left _ hx, hr⟩

/-- After the exchanges `told`, each request of the pass, whatever is replied, is of this kind in the
light of all that was replied before it. -/
def AsksKnowing (P : List Exchange → Request → Prop) (told : List Exchange) (p : Pass α) : Prop :=
  ∀ (cache after : Cache) (xs : List Exchange) (out : Except Failure α),
    Follows p cache xs out after →
    ∀ before x later, xs = before ++ x :: later → P (told ++ before) x.request

variable {P : List Exchange → Request → Prop} {told : List Exchange}

/-- Requests that are of a kind in any light. -/
theorem Asks.knowing {Q : Request → Prop} {p : Pass α} (h : Asks Q p)
    (hPQ : ∀ told r, Q r → P told r) : AsksKnowing P told p := by
  intro cache after xs out hp before x later hxs
  refine hPQ _ _ (h _ _ _ _ hp x ?_)
  rw [hxs]
  exact List.mem_append_right _ List.mem_cons_self

/-- Requests that are of a kind in any light are of this kind. -/
theorem AsksKnowing.asks {Q : Request → Prop} {p : Pass α}
    (h : AsksKnowing (fun _ => Q) [] p) : Asks Q p := by
  intro cache after xs out hp x hx
  obtain ⟨before, later, hxs⟩ := List.append_of_mem hx
  exact h _ _ _ _ hp before x later hxs

/-- What is asked next, along the way. -/
theorem AsksKnowing.of_leads {p : Pass α} {asked : List Exchange}
    {rest : Program signature (Except Failure α)} (h : AsksKnowing P [] p)
    (hleads : Program.Leads p.program asked rest) : ∀ q ∈ rest.pending, P asked q := by
  intro q hq
  obtain ⟨ys, out, hrest⟩ := Program.exists_follows rest
  obtain ⟨after, hfollows⟩ := follows_program.mp (hleads.follows hrest)
  rw [hrest.pending_eq] at hq
  cases ys with
  | nil => cases hq
  | cons y ys =>
    rw [List.mem_singleton.mp hq]
    exact h _ _ _ _ hfollows asked y ys rfl

theorem AsksKnowing.mono {Q : List Exchange → Request → Prop} {p : Pass α}
    (h : AsksKnowing P told p) (hPQ : ∀ told r, P told r → Q told r) : AsksKnowing Q told p :=
  fun _ _ _ _ hp before x later hxs => hPQ _ _ (h _ _ _ _ hp before x later hxs)

theorem knowing_ask {r : Request} (h : P told r) : AsksKnowing P told (ask r) := by
  intro cache after xs out hask before x later hxs
  obtain ⟨reply, rfl, -⟩ := follows_ask.mp hask
  cases before with
  | nil =>
    obtain ⟨rfl, -⟩ := List.cons.inj hxs
    rwa [List.append_nil]
  | cons y before => cases (List.append_eq_nil_iff.mp (List.cons.inj hxs).2.symm).2

theorem knowing_ite {c : Prop} [Decidable c] {p q : Pass α} (hp : AsksKnowing P told p)
    (hq : AsksKnowing P told q) : AsksKnowing P told (if c then p else q) := by
  split
  · exact hp
  · exact hq

theorem knowing_pure (a : α) : AsksKnowing P told (pure a : Pass α) :=
  (asks_pure (P := fun _ => False) a).knowing fun _ _ h => h.elim

theorem knowing_throw (e : Failure) : AsksKnowing P told (throw e : Pass α) :=
  (asks_throw (P := fun _ => False) e).knowing fun _ _ h => h.elim

/-- A request of two parts is one of the first, or one of the second, which was told of the first. -/
theorem knowing_append {ys zs before later : List Exchange} {x : Exchange}
    (hys : ∀ before x later, ys = before ++ x :: later → P (told ++ before) x.request)
    (hzs : ∀ before x later, zs = before ++ x :: later → P (told ++ ys ++ before) x.request)
    (hxs : ys ++ zs = before ++ x :: later) : P (told ++ before) x.request := by
  rcases List.append_eq_append_iff.mp hxs with ⟨rest, rfl, hrest⟩ | ⟨rest, hrest, hlater⟩
  · rw [← List.append_assoc]
    exact hzs rest x later hrest
  · cases rest with
    | nil =>
      rw [List.append_nil] at hrest
      rw [← List.append_nil before, ← hrest, ← List.append_assoc]
      exact hzs [] x later hlater.symm
    | cons y rest =>
      obtain ⟨rfl, -⟩ := List.cons.inj hlater
      exact hys before x rest hrest

theorem AsksKnowing.bind {p : Pass α} {f : α → Pass β} (hp : AsksKnowing P told p)
    (hf : ∀ cache ys a mid, Follows p cache ys (.ok a) mid → AsksKnowing P (told ++ ys) (f a)) :
    AsksKnowing P told (p >>= f) := by
  intro cache after xs out h before x later hxs
  rcases follows_bind.mp h with ⟨ys, zs, a, mid, rfl, hys, hzs⟩ | ⟨e, -, hfailed⟩
  · exact knowing_append (hp _ _ _ _ hys) (hf _ _ _ _ hys _ _ _ _ hzs) hxs
  · exact hp _ _ _ _ hfailed before x later hxs

theorem AsksKnowing.attempt_bind {p : Pass α} {f : Except Failure α → Pass β}
    (hp : AsksKnowing P told p)
    (hf : ∀ cache ys r mid, Follows p cache ys r mid → AsksKnowing P (told ++ ys) (f r)) :
    AsksKnowing P told (attempt p >>= f) := by
  intro cache after xs out h before x later hxs
  obtain ⟨ys, zs, r, mid, rfl, hys, hzs⟩ := follows_attempt_bind.mp h
  exact knowing_append (hp _ _ _ _ hys) (hf _ _ _ _ hys _ _ _ _ hzs) hxs

end Steward.Pass
