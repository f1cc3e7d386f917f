import Steward.Proofs.Pass.Trace

/-!
# Two runs side by side

A pass is run twice.  What is replied to some requests is left open, and may differ from one run to
the other (`free`); to the others the same is replied as long as the same was asked and replied
before (`Concord`).  Parts of a pass that make free requests only are told by what they come to
(`Aside`), and `Beside` says of two passes that they come to the same in two such runs, up to a
relation of their values.  It is carried from the parts of a pass to the whole.
-/

namespace Steward.Pass

variable {α β γ δ : Type}

/-! ## 1. The same replies -/

/-- The exchanges whose replies are not left open. -/
def bound (free : Request → Bool) (xs : List Exchange) : List Exchange :=
  xs.filter fun x => !free x.request

/-- To the same request, after the same was asked and replied, the same is replied. -/
def Concord (free : Request → Bool) (xs ys : List Exchange) : Prop :=
  ∀ zs q a b us vs, bound free xs = zs ++ ⟨q, a⟩ :: us → bound free ys = zs ++ ⟨q, b⟩ :: vs → a = b

variable {free : Request → Bool} {xs ys us vs : List Exchange}

theorem bound_append (xs ys : List Exchange) :
    bound free (xs ++ ys) = bound free xs ++ bound free ys :=
  List.filter_append ..

theorem bound_eq_self (h : ∀ x ∈ xs, free x.request = false) : bound free xs = xs := by
  rw [bound, List.filter_eq_self]
  intro x hx
  rw [h x hx]
  rfl

theorem bound_eq_nil (h : ∀ x ∈ xs, free x.request = true) : bound free xs = [] := by
  rw [bound, List.filter_eq_nil_iff]
  intro x hx
  rw [h x hx]
  exact Bool.false_ne_true

theorem Concord.of_append (h : Concord free (xs ++ us) (ys ++ vs)) : Concord free xs ys := by
  intro zs q a b as bs hxs hys
  refine h zs q a b (as ++ bound free us) (bs ++ bound free vs) ?_ ?_
  · rw [bound_append, hxs, List.append_assoc, List.cons_append]
  · rw [bound_append, hys, List.append_assoc, List.cons_append]

theorem Concord.of_append_left (h : Concord free (xs ++ us) ys) : Concord free xs ys := by
  rw [← List.append_nil ys] at h
  exact h.of_append

theorem Concord.of_append_right (h : Concord free xs (ys ++ vs)) : Concord free xs ys := by
  rw [← List.append_nil xs] at h
  exact h.of_append

theorem Concord.after (h : Concord free (xs ++ us) (ys ++ vs))
    (hsame : bound free xs = bound free ys) : Concord free us vs := by
  intro zs q a b as bs hus hvs
  refine h (bound free xs ++ zs) q a b as bs ?_ ?_
  · rw [bound_append, hus, List.append_assoc]
  · rw [bound_append, hvs, hsame, List.append_assoc]

/-- Runs that part with their last request were replied to alike. -/
theorem concord_of_ne {cs : List Exchange} {x y : Exchange} (hne : x.request ≠ y.request)
    (hxs : bound free xs = cs ++ [x]) (hys : bound free ys = cs ++ [y]) : Concord free xs ys := by
  intro zs q a b us vs hx hy
  rw [hxs] at hx
  rw [hys] at hy
  clear hxs hys
  induction cs generalizing zs with
  | nil =>
    cases zs with
    | nil =>
      obtain ⟨rfl, -⟩ := List.cons.inj hx
      obtain ⟨rfl, -⟩ := List.cons.inj hy
      exact absurd rfl hne
    | cons z zs => cases (List.append_eq_nil_iff.mp (List.cons.inj hx).2.symm).2
  | cons c cs ih =>
    cases zs with
    | nil =>
      obtain ⟨rfl, -⟩ := List.cons.inj hx
      obtain ⟨hc, -⟩ := List.cons.inj hy
      cases hc
      rfl
    | cons z zs => exact ih zs (List.cons.inj hx).2 (List.cons.inj hy).2

/-- The same replies lead the same program to the same end, where none of them is left open. -/
theorem Concord.unique {p : Program signature α} {a b : α} (hp : Program.Follows p xs a)
    (hq : Program.Follows p ys b) (h : Concord free xs ys) (hxs : ∀ x ∈ xs, free x.request = false)
    (hys : ∀ y ∈ ys, free y.request = false) : xs = ys ∧ a = b := by
  induction hp generalizing ys with
  | done a =>
    obtain ⟨rfl, rfl⟩ := Program.follows_done_iff.mp hq
    exact ⟨rfl, rfl⟩
  | ask _ ih =>
    obtain ⟨reply, rest, rfl, hrest⟩ := Program.follows_ask_iff.mp hq
    have hreply := h [] _ _ _ _ _ (bound_eq_self hxs) (bound_eq_self hys)
    subst hreply
    rw [List.forall_mem_cons] at hxs hys
    have hlater : Concord free _ rest := @Concord.after free [_] [_] _ rest h rfl
    obtain ⟨rfl, rfl⟩ := ih hrest hlater hxs.2 hys.2
    exact ⟨rfl, rfl⟩

/-! ## 2. Parts that are left open -/

/-- The pass makes free requests only, and comes to such a value whatever is replied. -/
def Aside (free : Request → Bool) (S : α → Prop) (p : Pass α) : Prop :=
  ∀ (cache after : Cache) (xs : List Exchange) (out : Except Failure α),
    Follows p cache xs out after →
    (∀ x ∈ xs, free x.request = true) ∧ after = cache ∧ ∃ a, out = .ok a ∧ S a

section Aside

variable {S : α → Prop} {T : β → Prop}

theorem aside_pure {a : α} (h : S a) : Aside free S (pure a) := by
  intro cache after xs out hp
  obtain ⟨rfl, rfl, rfl⟩ := follows_pure.mp hp
  refine ⟨fun x hx => ?_, rfl, a, rfl, h⟩
  cases hx

theorem aside_ask {q : Request} (h : free q = true) : Aside free (fun _ => True) (ask q) := by
  intro cache after xs out hp
  obtain ⟨reply, rfl, rfl, rfl⟩ := follows_ask.mp hp
  refine ⟨fun x hx => ?_, rfl, reply, rfl, trivial⟩
  rw [List.mem_singleton.mp hx]
  exact h

theorem Aside.bind {p : Pass α} {f : α → Pass β} (hp : Aside free S p)
    (hf : ∀ a, S a → Aside free T (f a)) : Aside free T (p >>= f) := by
  intro cache after xs out h
  rcases follows_bind.mp h with ⟨ys, zs, a, mid, rfl, hys, hzs⟩ | ⟨e, -, hfailed⟩
  · obtain ⟨hfree, rfl, a', ha, hS⟩ := hp _ _ _ _ hys
    cases ha
    obtain ⟨hfree', rfl, b, rfl, hT⟩ := hf a hS _ _ _ _ hzs
    exact ⟨List.forall_mem_append.mpr ⟨hfree, hfree'⟩, rfl, b, rfl, hT⟩
  · obtain ⟨-, -, a, ha, -⟩ := hp _ _ _ _ hfailed
    cases ha

theorem aside_ite {c : Prop} [Decidable c] {p q : Pass α} (hp : Aside free S p)
    (hq : Aside free S q) : Aside free S (if c then p else q) := by
  split
  · exact hp
  · exact hq

end Aside

/-! ## 3. The same outcome -/

/-- Values that are related, or the same failure. -/
inductive SameOutcome (R : α → β → Prop) : Except Failure α → Except Failure β → Prop where
  | ok {a : α} {b : β} : R a b → SameOutcome R (.ok a) (.ok b)
  | error (e : Failure) : SameOutcome R (.error e) (.error e)

/-- Two runs of these passes with the same replies, from the same secrets, ask the same, but for
free requests, and come to the same. -/
def Beside (free : Request → Bool) (R : α → β → Prop) (p : Pass α) (q : Pass β) : Prop :=
  ∀ (cache after after' : Cache) (xs ys : List Exchange) (out : Except Failure α)
    (out' : Except Failure β), Follows p cache xs out after → Follows q cache ys out' after' →
    Concord free xs ys → bound free xs = bound free ys ∧ after = after' ∧ SameOutcome R out out'

section Beside

variable {R : α → β → Prop} {T : γ → δ → Prop} {p : Pass α} {q : Pass β}

theorem beside_pure {a : α} {b : β} (h : R a b) : Beside free R (pure a) (pure b) := by
  intro cache after after' xs ys out out' hp hq _
  obtain ⟨rfl, rfl, rfl⟩ := follows_pure.mp hp
  obtain ⟨rfl, rfl, rfl⟩ := follows_pure.mp hq
  exact ⟨rfl, rfl, .ok h⟩

/-- Parts that are left open stand beside each other whatever they are. -/
theorem Aside.beside {S : α → Prop} {S' : β → Prop} (hp : Aside free S p) (hq : Aside free S' q) :
    Beside free (fun a b => S a ∧ S' b) p q := by
  intro cache after after' xs ys out out' hxs hys _
  obtain ⟨hfree, rfl, a, rfl, ha⟩ := hp _ _ _ _ hxs
  obtain ⟨hfree', rfl, b, rfl, hb⟩ := hq _ _ _ _ hys
  exact ⟨by rw [bound_eq_nil hfree, bound_eq_nil hfree'], rfl, .ok ⟨ha, hb⟩⟩

/-- A pass that makes no free request comes to the same again. -/
theorem Asks.beside (hp : Asks (fun q => free q = false) p) : Beside free Eq p p := by
  intro cache after after' xs ys out out' hxs hys hsame
  obtain ⟨rfl, hend⟩ :=
    hsame.unique hxs hys (hp cache after xs out hxs) (hp cache after' ys out' hys)
  cases hend
  refine ⟨rfl, rfl, ?_⟩
  cases out with
  | ok a => exact .ok rfl
  | error e => exact .error e

theorem Beside.bind {f : α → Pass γ} {g : β → Pass δ} (h : Beside free R p q)
    (hfg : ∀ a b, R a b → Beside free T (f a) (g b)) : Beside free T (p >>= f) (q >>= g) := by
  intro cache after after' xs ys out out' hxs hys hsame
  rcases follows_bind.mp hxs with ⟨xs₁, xs₂, a, mid, rfl, hp, hf⟩ | ⟨e, rfl, hp⟩ <;>
    rcases follows_bind.mp hys with ⟨ys₁, ys₂, b, mid', rfl, hq, hg⟩ | ⟨e', rfl, hq⟩
  · obtain ⟨hbound, rfl, hR⟩ := h _ _ _ _ _ _ _ hp hq hsame.of_append
    cases hR with
    | ok hab =>
      obtain ⟨hbound', hafter, hT⟩ := hfg a b hab _ _ _ _ _ _ _ hf hg (hsame.after hbound)
      exact ⟨by rw [bound_append, bound_append, hbound, hbound'], hafter, hT⟩
  · rw [← List.append_nil ys] at hsame
    obtain ⟨-, -, hR⟩ := h _ _ _ _ _ _ _ hp hq hsame.of_append
    cases hR
  · rw [← List.append_nil xs] at hsame
    obtain ⟨-, -, hR⟩ := h _ _ _ _ _ _ _ hp hq hsame.of_append
    cases hR
  · obtain ⟨hbound, hafter, hR⟩ := h _ _ _ _ _ _ _ hp hq hsame
    cases hR
    exact ⟨hbound, hafter, .error e⟩

theorem Beside.attempt_bind {f : Except Failure α → Pass γ} {g : Except Failure β → Pass δ}
    (h : Beside free R p q) (hfg : ∀ r s, SameOutcome R r s → Beside free T (f r) (g s)) :
    Beside free T (attempt p >>= f) (attempt q >>= g) := by
  intro cache after after' xs ys out out' hxs hys hsame
  obtain ⟨xs₁, xs₂, r, mid, rfl, hp, hf⟩ := follows_attempt_bind.mp hxs
  obtain ⟨ys₁, ys₂, s, mid', rfl, hq, hg⟩ := follows_attempt_bind.mp hys
  obtain ⟨hbound, rfl, hR⟩ := h _ _ _ _ _ _ _ hp hq hsame.of_append
  obtain ⟨hbound', hafter, hT⟩ := hfg r s hR _ _ _ _ _ _ _ hf hg (hsame.after hbound)
  exact ⟨by rw [bound_append, bound_append, hbound, hbound'], hafter, hT⟩

/-- A request that is not free has one reply. -/
theorem beside_ask_bind {r : Request} {f : r.Reply → Pass γ} {g : r.Reply → Pass δ}
    (hr : free r = false) (h : ∀ reply, Beside free T (f reply) (g reply)) :
    Beside free T (ask r >>= f) (ask r >>= g) := by
  refine (asks_ask hr).beside.bind ?_
  rintro reply _ rfl
  exact h reply

theorem Aside.beside_bind {S : α → Prop} {p q : Pass α} {f g : α → Pass γ} {T : γ → γ → Prop}
    (hp : Aside free S p) (hq : Aside free S q)
    (h : ∀ a b, S a → S b → Beside free T (f a) (g b)) : Beside free T (p >>= f) (q >>= g) :=
  (hp.beside hq).bind fun a b hab => h a b hab.1 hab.2

end Beside

end Steward.Pass
