import Steward.Pass.Request
import Steward.Proofs.Program

/-!
# Following passes

A pass is followed from the secrets that it begins with to its outcome and the secrets that it has
read by then.  There is one lemma for each way in which a pass is put together; with them the traces
of a pass are found by rewriting.  Recorded events have no say in what happens next, and `quiet`
leaves them out.
-/

namespace Steward.Pass

variable {α β : Type}

/-- A request of a pass with its reply. -/
abbrev Exchange := Program.Exchange signature

instance (r : Request) : Nonempty (signature.Reply r) := by
  cases r with
  | record _ => exact ⟨()⟩
  | _ => exact ⟨.error (.timeout "")⟩

/-- From the secrets `cache` the pass makes exactly these requests, is given these replies, and ends
with the outcome and the secrets `after`. -/
def Follows (p : Pass α) (cache : Cache) (xs : List Exchange) (out : Except Failure α)
    (after : Cache) : Prop :=
  Program.Follows (p.run cache) xs (out, after)

/-! ## 1. Passes that ask nothing -/

section Silent

variable {cache after : Cache} {xs : List Exchange}

theorem follows_settle {r out : Except Failure α} :
    Follows (settle r) cache xs out after ↔ xs = [] ∧ out = r ∧ after = cache := by
  rw [Follows, settle, ExceptT.run_mk, Program.follows_done_iff, Prod.mk.injEq]

theorem follows_pure {a : α} {out : Except Failure α} :
    Follows (pure a) cache xs out after ↔ xs = [] ∧ out = .ok a ∧ after = cache :=
  follows_settle (r := .ok a)

theorem follows_throw {e : Failure} {out : Except Failure α} :
    Follows (throw e) cache xs out after ↔ xs = [] ∧ out = .error e ∧ after = cache :=
  follows_settle (r := .error e)

end Silent

/-! ## 2. Sequence -/

section Sequence

variable {p : Pass α} {f : α → Pass β} {cache after : Cache} {xs : List Exchange}
  {out : Except Failure β}

/-- A pass goes on with the value of the first one, or fails with it. -/
theorem follows_bind :
    Follows (p >>= f) cache xs out after ↔
      (∃ ys zs a mid, xs = ys ++ zs ∧ Follows p cache ys (.ok a) mid ∧
        Follows (f a) mid zs out after) ∨
      ∃ e, out = .error e ∧ Follows p cache xs (.error e) after := by
  have hrun : (p >>= f).run cache = (p.run cache).bind fun r => match r with
      | (.ok a, mid) => (f a).run mid
      | (.error e, mid) => .done (.error e, mid) := by
    change (p.run cache).bind _ = _
    congr 1
    funext ⟨r, mid⟩
    cases r <;> rfl
  rw [Follows, hrun, Program.follows_bind_iff]
  constructor
  · rintro ⟨ys, zs, ⟨r, mid⟩, hxs, hp, hf⟩
    cases r with
    | ok a => exact Or.inl ⟨ys, zs, a, mid, hxs, hp, hf⟩
    | error e =>
      obtain ⟨rfl, hout⟩ := Program.follows_done_iff.mp hf
      obtain ⟨rfl, rfl⟩ := Prod.mk.inj hout
      rw [List.append_nil] at hxs
      exact Or.inr ⟨e, rfl, hxs ▸ hp⟩
  · rintro (⟨ys, zs, a, mid, hxs, hp, hf⟩ | ⟨e, rfl, hp⟩)
    · exact ⟨ys, zs, (.ok a, mid), hxs, hp, hf⟩
    · exact ⟨xs, [], (.error e, after), (List.append_nil xs).symm, hp, .done _⟩

/-- A pass goes on with a value that is there, and ends where there is none. -/
theorem follows_settle_bind {r : Except Failure α} :
    Follows (settle r >>= f) cache xs out after ↔
      match r with
      | .ok a => Follows (f a) cache xs out after
      | .error e => xs = [] ∧ out = .error e ∧ after = cache := by
  cases r with
  | ok a => exact Iff.rfl
  | error e => exact follows_settle (r := .error e)

/-- A pass whose value is changed at the end. -/
theorem follows_bind_pure {g : α → β} :
    Follows (p >>= fun a => pure (g a)) cache xs out after ↔
      ∃ r, Follows p cache xs r after ∧ out = r.map g := by
  rw [follows_bind]
  constructor
  · rintro (⟨ys, zs, a, mid, rfl, hp, hdone⟩ | ⟨e, rfl, hp⟩)
    · obtain ⟨rfl, rfl, rfl⟩ := follows_pure.mp hdone
      exact ⟨.ok a, by rwa [List.append_nil], rfl⟩
    · exact ⟨.error e, hp, rfl⟩
  · rintro ⟨r, hp, rfl⟩
    cases r with
    | ok a =>
      exact Or.inl ⟨xs, [], a, after, (List.append_nil xs).symm, hp,
        follows_pure.mpr ⟨rfl, rfl, rfl⟩⟩
    | error e => exact Or.inr ⟨e, rfl, hp⟩

/-- A pass whose outcome is looked at lets what follows go on. -/
theorem follows_attempt_bind {f : Except Failure α → Pass β} :
    Follows (attempt p >>= f) cache xs out after ↔
      ∃ ys zs r mid, xs = ys ++ zs ∧ Follows p cache ys r mid ∧
        Follows (f r) mid zs out after := by
  have hrun : (attempt p >>= f).run cache =
      (p.run cache).bind fun r => (f r.1).run r.2 := by
    change ((p.run cache).bind _).bind _ = _
    rw [Program.bind_assoc]
    rfl
  rw [Follows, hrun, Program.follows_bind_iff]
  constructor
  · rintro ⟨ys, zs, ⟨r, mid⟩, hxs, hp, hf⟩
    exact ⟨ys, zs, r, mid, hxs, hp, hf⟩
  · rintro ⟨ys, zs, r, mid, hxs, hp, hf⟩
    exact ⟨ys, zs, (r, mid), hxs, hp, hf⟩

theorem follows_ask_bind {r : Request} {f : r.Reply → Pass β} :
    Follows (ask r >>= f) cache xs out after ↔
      ∃ reply rest, xs = ⟨r, reply⟩ :: rest ∧ Follows (f reply) cache rest out after :=
  Program.follows_ask_iff

theorem follows_ask {r : Request} {out : Except Failure r.Reply} :
    Follows (ask r) cache xs out after ↔
      ∃ reply, xs = [⟨r, reply⟩] ∧ out = .ok reply ∧ after = cache := by
  rw [Follows, ask, ExceptT.run_mk, Program.follows_ask_iff]
  simp only [Program.follows_done_iff, Prod.mk.injEq]
  constructor
  · rintro ⟨reply, rest, rfl, rfl, rfl, rfl⟩
    exact ⟨reply, rfl, rfl, rfl⟩
  · rintro ⟨reply, rfl, rfl, rfl⟩
    exact ⟨reply, [], rfl, rfl, rfl, rfl⟩

/-- The secrets read so far are there without asking. -/
theorem follows_cache_bind {f : Cache → Pass β} :
    Follows (Pass.cache >>= f) cache xs out after ↔ Follows (f cache) cache xs out after :=
  Iff.rfl

/-- A secret that is kept is among those read from there on. -/
theorem follows_remember_bind {key : String} {data : SecretData} {f : Unit → Pass β} :
    Follows (remember key data >>= f) cache xs out after ↔
      Follows (f ()) (Table.set cache key data) xs out after :=
  Iff.rfl

theorem follows_record_bind {e : Event} {f : Unit → Pass β} :
    Follows (record e >>= f) cache xs out after ↔
      ∃ rest, xs = ⟨.record e, ()⟩ :: rest ∧ Follows (f ()) cache rest out after :=
  follows_ask_bind.trans ⟨fun ⟨_, h⟩ => h, fun h => ⟨(), h⟩⟩

/-- A request whose failure is a failure of the pass. -/
theorem follows_ask_settle {r : Request} {g : r.Reply → Except Failure α}
    {out : Except Failure α} :
    Follows (ask r >>= fun reply => settle (g reply)) cache xs out after ↔
      ∃ reply, xs = [⟨r, reply⟩] ∧ out = g reply ∧ after = cache := by
  rw [follows_ask_bind]
  simp only [follows_settle]
  constructor
  · rintro ⟨reply, rest, rfl, rfl, rfl, rfl⟩
    exact ⟨reply, rfl, rfl, rfl⟩
  · rintro ⟨reply, rfl, rfl, rfl⟩
    exact ⟨reply, [], rfl, rfl, rfl, rfl⟩

end Sequence

/-- A list that nothing is asked for is gone through as it is without a pass. -/
theorem follows_mapM {f : α → Pass β} {g : α → Except Failure β}
    (hf : ∀ a cache xs out after, Follows (f a) cache xs out after →
      xs = [] ∧ out = g a ∧ after = cache)
    {items : List α} {cache after : Cache} {xs : List Exchange} {out : Except Failure (List β)}
    (h : Follows (items.mapM f) cache xs out after) :
    xs = [] ∧ out = items.mapM g ∧ after = cache := by
  induction items generalizing xs out with
  | nil => exact follows_pure.mp h
  | cons a items ih =>
    rw [List.mapM_cons] at h ⊢
    rcases follows_bind.mp h with ⟨ys, zs, b, mid, rfl, ha, hitems⟩ | ⟨e, rfl, ha⟩
    · obtain ⟨rfl, hb, rfl⟩ := hf _ _ _ _ _ ha
      obtain ⟨r, hrest, rfl⟩ := follows_bind_pure.mp hitems
      obtain ⟨rfl, rfl, rfl⟩ := ih hrest
      rw [← hb]
      exact ⟨rfl, by cases items.mapM g <;> rfl, rfl⟩
    · obtain ⟨rfl, he, rfl⟩ := hf _ _ _ _ _ ha
      rw [← he]
      exact ⟨rfl, rfl, rfl⟩

/-! ## 3. Whole passes -/

/-- A pass as a program begins without secrets. -/
theorem follows_program {p : Pass α} {xs : List Exchange} {out : Except Failure α} :
    Program.Follows p.program xs out ↔ ∃ after, Follows p [] xs out after := by
  have hrun : p.program = (p.run []).bind fun r => .done r.1 := rfl
  rw [hrun, Program.follows_bind_iff]
  constructor
  · rintro ⟨ys, zs, ⟨r, after⟩, rfl, hp, hdone⟩
    obtain ⟨rfl, rfl⟩ := Program.follows_done_iff.mp hdone
    exact ⟨after, by rwa [List.append_nil]⟩
  · rintro ⟨after, hp⟩
    exact ⟨xs, [], (out, after), (List.append_nil xs).symm, hp, .done _⟩

/-- The replies decide how a pass goes on, when it ends, and how. -/
theorem Follows.unique {p : Pass α} {cache after after' : Cache} {xs ys us vs : List Exchange}
    {out out' : Except Failure α} (h : Follows p cache xs out after)
    (k : Follows p cache ys out' after') (hsame : xs ++ us = ys ++ vs) :
    xs = ys ∧ out = out' ∧ after = after' := by
  obtain ⟨hxs, hend⟩ := Program.Follows.unique h k hsame
  obtain ⟨hout, hafter⟩ := Prod.mk.inj hend
  exact ⟨hxs, hout, hafter⟩

/-! ## 4. Events left out -/

/-- The exchange records an event. -/
@[simp]
def isRecord (x : Exchange) : Bool :=
  match x.request with
  | .record _ => true
  | _ => false

/-- The request records an event. -/
def Request.Records (r : Request) : Prop := ∃ e, r = .record e

theorem isRecord_iff {x : Exchange} : isRecord x = true ↔ x.request.Records := by
  obtain ⟨request, reply⟩ := x
  cases request with
  | record e => exact ⟨fun _ => ⟨e, rfl⟩, fun _ => rfl⟩
  | _ => exact iff_of_false Bool.false_ne_true fun ⟨_, h⟩ => nomatch h

/-- Exchanges without recorded events. -/
def quiet (xs : List Exchange) : List Exchange := xs.filter fun x => !isRecord x

@[simp]
theorem quiet_nil : quiet [] = [] := rfl

@[simp]
theorem quiet_cons (x : Exchange) (xs : List Exchange) :
    quiet (x :: xs) = if isRecord x then quiet xs else x :: quiet xs := by
  rw [quiet, List.filter_cons]
  cases isRecord x <;> rfl

theorem quiet_append (xs ys : List Exchange) : quiet (xs ++ ys) = quiet xs ++ quiet ys :=
  List.filter_append ..

theorem mem_quiet {x : Exchange} {xs : List Exchange} :
    x ∈ quiet xs ↔ x ∈ xs ∧ isRecord x = false := by
  rw [quiet, List.mem_filter, Bool.not_eq_true']

/-- What holds of recorded events and of the requests besides holds of all requests. -/
theorem forall_of_quiet {P : Request → Prop} {xs : List Exchange}
    (hrecords : ∀ r : Request, r.Records → P r) (hquiet : ∀ x ∈ quiet xs, P x.request) :
    ∀ x ∈ xs, P x.request := by
  intro x hx
  cases hrecord : isRecord x with
  | true => exact hrecords _ (isRecord_iff.mp hrecord)
  | false => exact hquiet x (mem_quiet.mpr ⟨hx, hrecord⟩)

theorem quiet_eq_nil_iff {xs : List Exchange} : quiet xs = [] ↔ ∀ x ∈ xs, isRecord x = true := by
  simp only [quiet, List.filter_eq_nil_iff, Bool.not_eq_true', Bool.not_eq_false]

/-! ## 5. What is asked -/

/-- All requests of the pass, whatever is replied, are of this kind. -/
def Asks (P : Request → Prop) (p : Pass α) : Prop :=
  ∀ (cache after : Cache) (xs : List Exchange) (out : Except Failure α),
    Follows p cache xs out after → ∀ x ∈ xs, P x.request

section Asks

variable {P : Request → Prop}

theorem asks_settle (r : Except Failure α) : Asks P (settle r) := by
  intro cache after xs out h x hx
  rw [follows_settle] at h
  rw [h.1] at hx
  cases hx

theorem asks_pure (a : α) : Asks P (pure a) := asks_settle (.ok a)

theorem asks_throw (e : Failure) : Asks P (throw e : Pass α) := asks_settle (.error e)

theorem asks_ask {r : Request} (h : P r) : Asks P (ask r) := by
  intro cache after xs out hf x hx
  obtain ⟨reply, rfl, -⟩ := follows_ask.mp hf
  rw [List.mem_singleton] at hx
  exact hx ▸ h

theorem Asks.bind {p : Pass α} {f : α → Pass β} (hp : Asks P p) (hf : ∀ a, Asks P (f a)) :
    Asks P (p >>= f) := by
  intro cache after xs out h x hx
  rcases follows_bind.mp h with ⟨ys, zs, a, mid, rfl, hys, hzs⟩ | ⟨e, -, hxs⟩
  · rcases List.mem_append.mp hx with hx | hx
    · exact hp _ _ _ _ hys x hx
    · exact hf a _ _ _ _ hzs x hx
  · exact hp _ _ _ _ hxs x hx

theorem asks_ite {c : Prop} [Decidable c] {p q : Pass α} (hp : Asks P p) (hq : Asks P q) :
    Asks P (if c then p else q) := by
  split
  · exact hp
  · exact hq

theorem Asks.mono {Q : Request → Prop} {p : Pass α} (hp : Asks P p) (hPQ : ∀ r, P r → Q r) :
    Asks Q p :=
  fun cache after xs out h x hx => hPQ _ (hp cache after xs out h x hx)

theorem Asks.attempt {p : Pass α} (hp : Asks P p) : Asks P (attempt p) := by
  intro cache after xs out h x hx
  have hbind : Follows (Pass.attempt p >>= fun r => settle (.ok r)) cache xs out after := by
    rw [show (fun r => settle (.ok r)) = (pure : Except Failure α → Pass _) from rfl, bind_pure]
    exact h
  obtain ⟨ys, zs, r, mid, rfl, hys, hzs⟩ := follows_attempt_bind.mp hbind
  rw [(follows_settle.mp hzs).1, List.append_nil] at hx
  exact hp _ _ _ _ hys x hx

theorem asks_ask_settle {r : Request} {g : r.Reply → Except Failure α} (h : P r) :
    Asks P (ask r >>= fun reply => settle (g reply)) :=
  (asks_ask h).bind fun reply => asks_settle (g reply)

theorem asks_cache : Asks P cache := by
  intro cache after xs out h x hx
  rw [Follows, Pass.cache, ExceptT.run_mk, Program.follows_done_iff] at h
  rw [h.1] at hx
  cases hx

theorem asks_remember (key : String) (data : SecretData) : Asks P (remember key data) := by
  intro cache after xs out h x hx
  rw [Follows, remember, ExceptT.run_mk, Program.follows_done_iff] at h
  rw [h.1] at hx
  cases hx

end Asks

end Steward.Pass
