import Steward.Program

/-!
# What a program may ask

A program is followed along replies: to its end (`Follows`), or up to a point from which another
program is left (`Leads`).  What a program was led to can be followed to an end, so a law of whole
runs says what a program may ask at any point.  In a world every program comes to an end, along the
replies that this world plays (`Plays`).
-/

namespace Steward.Program

variable {S : Signature} {α β : Type}

/-! ## 1. To the end -/

theorem follows_done_iff {a b : α} {xs : List (Exchange S)} :
    Follows (.done a) xs b ↔ xs = [] ∧ b = a := by
  refine ⟨fun h => ?_, fun ⟨hxs, hb⟩ => hxs ▸ hb ▸ .done a⟩
  cases h with
  | done => exact ⟨rfl, rfl⟩

theorem follows_ask_iff {r : S.Request} {next : S.Reply r → Program S α} {xs : List (Exchange S)}
    {a : α} :
    Follows (.ask r next) xs a ↔
      ∃ reply rest, xs = ⟨r, reply⟩ :: rest ∧ Follows (next reply) rest a := by
  constructor
  · intro h
    cases h with
    | ask h' => exact ⟨_, _, rfl, h'⟩
  · rintro ⟨reply, rest, rfl, h⟩
    exact .ask h

theorem follows_bind_iff {p : Program S α} {f : α → Program S β} {zs : List (Exchange S)} {b : β} :
    Follows (p.bind f) zs b ↔ ∃ xs ys a, zs = xs ++ ys ∧ Follows p xs a ∧ Follows (f a) ys b := by
  refine ⟨Follows.of_bind, ?_⟩
  rintro ⟨xs, ys, a, rfl, hp, hf⟩
  exact hp.bind hf

/-- A program that asks nothing is done. -/
theorem follows_nil_iff {p : Program S α} {a : α} : Follows p [] a ↔ p = .done a := by
  constructor
  · intro h
    cases h with
    | done => rfl
  · rintro rfl
    exact .done a

/-- A program that is replied to asks first what the reply is to. -/
theorem follows_cons_iff {p : Program S α} {r : S.Request} {reply : S.Reply r}
    {xs : List (Exchange S)} {a : α} :
    Follows p (⟨r, reply⟩ :: xs) a ↔ ∃ next, p = .ask r next ∧ Follows (next reply) xs a := by
  constructor
  · intro h
    cases h with
    | ask h => exact ⟨_, rfl, h⟩
  · rintro ⟨next, rfl, h⟩
    exact .ask h

/-- Some replies lead to the end. -/
theorem exists_follows [∀ r, Nonempty (S.Reply r)] (p : Program S α) : ∃ xs a, Follows p xs a := by
  induction p with
  | done a => exact ⟨[], a, .done a⟩
  | ask r next ih =>
    obtain ⟨xs, a, h⟩ := ih (Classical.choice inferInstance)
    exact ⟨_, a, .ask h⟩

/-- The replies decide how a run goes on, and when it ends. -/
theorem Follows.unique {p : Program S α} {xs ys us vs : List (Exchange S)} {a b : α}
    (h : Follows p xs a) (k : Follows p ys b) (hsame : xs ++ us = ys ++ vs) : xs = ys ∧ a = b := by
  induction h generalizing ys with
  | done a =>
    obtain ⟨rfl, rfl⟩ := follows_done_iff.mp k
    exact ⟨rfl, rfl⟩
  | ask _ ih =>
    obtain ⟨reply, rest, rfl, hrest⟩ := follows_ask_iff.mp k
    obtain ⟨hx, hlater⟩ := List.cons.inj hsame
    cases hx
    obtain ⟨rfl, rfl⟩ := ih hrest hlater
    exact ⟨rfl, rfl⟩

/-! ## 2. Up to a point -/

/-- The program makes these requests, is given these replies, and the second one is left. -/
inductive Leads : Program S α → List (Exchange S) → Program S α → Prop where
  | refl (p : Program S α) : Leads p [] p
  | ask {r : S.Request} {next : S.Reply r → Program S α} {reply : S.Reply r}
      {rest : List (Exchange S)} {q : Program S α} :
      Leads (next reply) rest q → Leads (.ask r next) (⟨r, reply⟩ :: rest) q

/-- What is left is led on by one more reply. -/
theorem Leads.snoc {p : Program S α} {xs : List (Exchange S)} {r : S.Request}
    {next : S.Reply r → Program S α} (h : Leads p xs (.ask r next)) (reply : S.Reply r) :
    Leads p (xs ++ [⟨r, reply⟩]) (next reply) := by
  generalize hq : Program.ask r next = q at h
  induction h with
  | refl p =>
    subst hq
    exact .ask (.refl _)
  | ask _ ih => exact .ask (ih hq)

theorem Leads.follows {p q : Program S α} {xs ys : List (Exchange S)} {a : α} (h : Leads p xs q)
    (k : Follows q ys a) : Follows p (xs ++ ys) a := by
  induction h with
  | refl p => exact k
  | ask _ ih => exact .ask (ih k)

/-- What was asked and replied so far begins a whole run. -/
theorem Leads.exists_follows [∀ r, Nonempty (S.Reply r)] {p q : Program S α}
    {xs : List (Exchange S)} (h : Leads p xs q) : ∃ ys a, Follows p (xs ++ ys) a := by
  obtain ⟨ys, a, hq⟩ := Program.exists_follows q
  exact ⟨ys, a, h.follows hq⟩

/-- The request that is asked next, if there is one. -/
def pending : Program S α → List S.Request
  | .done _ => []
  | .ask r _ => [r]

/-- What is asked next is what a run to the end asks first. -/
theorem Follows.pending_eq {p : Program S α} {xs : List (Exchange S)} {a : α} (h : Follows p xs a) :
    p.pending = (xs.head?.map (·.request)).toList := by
  cases h <;> rfl

/-- What was asked so far and what is asked next begin the requests of a whole run. -/
theorem Leads.exists_follows_pending [∀ r, Nonempty (S.Reply r)] {p q : Program S α}
    {xs : List (Exchange S)} (h : Leads p xs q) :
    ∃ zs a, Follows p zs a ∧ xs.map (·.request) ++ q.pending <+: zs.map (·.request) := by
  obtain ⟨ys, a, hq⟩ := Program.exists_follows q
  refine ⟨xs ++ ys, a, h.follows hq, ?_⟩
  rw [List.map_append, List.prefix_append_right_inj]
  cases hq with
  | done => exact List.nil_prefix
  | ask _ => exact ⟨_, rfl⟩

/-! ## 3. In a world -/

section World

variable {σ : Type} {world : World S σ} {s s' : σ} {xs ys : List (Exchange S)}

/-- From the state `s` on the world replies so, one request after the other, and comes to the state
at the end. -/
inductive Plays (world : World S σ) : σ → List (Exchange S) → σ → Prop where
  | nil (s : σ) : Plays world s [] s
  | cons {s s' : σ} {r : S.Request} {rest : List (Exchange S)} :
      Plays world (world r s).2 rest s' → Plays world s (⟨r, (world r s).1⟩ :: rest) s'

theorem plays_nil_iff : Plays world s [] s' ↔ s' = s := by
  constructor
  · intro h
    cases h with
    | nil => rfl
  · rintro rfl
    exact .nil _

theorem plays_cons_iff {r : S.Request} {reply : S.Reply r} :
    Plays world s (⟨r, reply⟩ :: xs) s' ↔
      reply = (world r s).1 ∧ Plays world (world r s).2 xs s' := by
  constructor
  · intro h
    cases h with
    | cons h' => exact ⟨rfl, h'⟩
  · rintro ⟨rfl, h⟩
    exact .cons h

theorem plays_append_iff :
    Plays world s (xs ++ ys) s' ↔ ∃ mid, Plays world s xs mid ∧ Plays world mid ys s' := by
  induction xs generalizing s with
  | nil =>
    rw [List.nil_append]
    simp only [plays_nil_iff, exists_eq_left]
  | cons x xs ih =>
    obtain ⟨r, reply⟩ := x
    rw [List.cons_append]
    simp only [plays_cons_iff, ih, and_assoc, exists_and_left]

/-- What each request keeps, all of them keep. -/
theorem Plays.keeps {ν : Type} {view : σ → ν} (h : Plays world s xs s')
    (hkeeps : ∀ x ∈ xs, ∀ t, view (world x.request t).2 = view t) : view s' = view s := by
  induction h with
  | nil s => rfl
  | cons _ ih =>
    rw [List.forall_mem_cons] at hkeeps
    rw [ih hkeeps.2, hkeeps.1]

/-- A program comes to its end in every world, along the replies of that world. -/
theorem exists_follows_run (world : World S σ) (p : Program S α) (s : σ) :
    ∃ xs, Follows p xs (p.run world s).1 ∧ Plays world s xs (p.run world s).2 := by
  induction p generalizing s with
  | done a => exact ⟨[], .done a, .nil s⟩
  | ask r next ih =>
    obtain ⟨xs, hfollows, hplays⟩ := ih (world r s).1 (world r s).2
    exact ⟨_, .ask hfollows, .cons hplays⟩

/-- Along the replies of a world a program comes to the end that it has there. -/
theorem Follows.run_eq {p : Program S α} {a : α} (h : Follows p xs a) (k : Plays world s xs s') :
    p.run world s = (a, s') := by
  induction h generalizing s with
  | done a =>
    rw [plays_nil_iff.mp k]
    rfl
  | ask _ ih =>
    obtain ⟨rfl, hrest⟩ := plays_cons_iff.mp k
    exact ih hrest

end World

end Steward.Program
