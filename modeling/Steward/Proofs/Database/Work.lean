import Steward.Database.Store
import Steward.Proofs.Program

/-!
# Following work on a database

Work is followed from its first request to its outcome.  There is one lemma for each way in which
work is put together; with them the requests of a piece of work are found by rewriting.
-/

namespace Steward.Database.Work

variable {α β : Type}

/-- A request to a database with its reply. -/
abbrev Exchange := Program.Exchange signature

instance (r : Request) : Nonempty (signature.Reply r) := by
  cases r with
  | run _ => exact ⟨.ok .null⟩
  | _ => exact ⟨.ok ()⟩

/-- The work makes exactly these requests, is given these replies, and ends with the outcome. -/
def Follows (w : Work α) (xs : List Exchange) (out : Except Error α) : Prop :=
  Program.Follows (ExceptT.run w) xs out

/-! ## 1. Single steps -/

section Steps

variable {xs : List Exchange}

theorem follows_settle {r out : Except Error α} :
    Follows (settle r) xs out ↔ xs = [] ∧ out = r := by
  rw [Follows, settle, ExceptT.run_mk, Program.follows_done_iff]

theorem follows_pure {a : α} {out : Except Error α} :
    Follows (pure a) xs out ↔ xs = [] ∧ out = .ok a := follows_settle (r := .ok a)

theorem follows_throw {e : Error} {out : Except Error α} :
    Follows (throw e) xs out ↔ xs = [] ∧ out = .error e := follows_settle (r := .error e)

theorem follows_ask {r : Request} {next : Request.Reply r → Except Error α} {out : Except Error α} :
    Follows (ask r next) xs out ↔ ∃ reply, xs = [⟨r, reply⟩] ∧ out = next reply := by
  rw [Follows, ask, ExceptT.run_mk, Program.follows_ask_iff]
  simp only [Program.follows_done_iff]
  constructor
  · rintro ⟨reply, rest, rfl, rfl, rfl⟩
    exact ⟨reply, rfl, rfl⟩
  · rintro ⟨reply, rfl, rfl⟩
    exact ⟨reply, [], rfl, rfl, rfl⟩

/-- The outcome of a statement is what is replied. -/
theorem follows_run {s : Statement} {out : Except Error Json} :
    Follows (run s) xs out ↔ xs = [⟨.run s, out⟩] := by
  rw [run, follows_ask]
  constructor
  · rintro ⟨reply, rfl, rfl⟩
    rfl
  · rintro rfl
    exact ⟨out, rfl, rfl⟩

theorem follows_begin {out : Except Error Unit} : Follows begin xs out ↔ xs = [⟨.begin, out⟩] := by
  rw [begin, follows_ask]
  constructor
  · rintro ⟨reply, rfl, rfl⟩
    rfl
  · rintro rfl
    exact ⟨out, rfl, rfl⟩

theorem follows_commit {out : Except Error Unit} :
    Follows commit xs out ↔ xs = [⟨.commit, out⟩] := by
  rw [commit, follows_ask]
  constructor
  · rintro ⟨reply, rfl, rfl⟩
    rfl
  · rintro rfl
    exact ⟨out, rfl, rfl⟩

theorem follows_rollback {out : Except Error Unit} :
    Follows rollback xs out ↔ xs = [⟨.rollback, out⟩] := by
  rw [rollback, follows_ask]
  constructor
  · rintro ⟨reply, rfl, rfl⟩
    rfl
  · rintro rfl
    exact ⟨out, rfl, rfl⟩

end Steps

/-! ## 2. Sequence -/

section Sequence

variable {w : Work α} {f : α → Work β} {xs : List Exchange} {out : Except Error β}

/-- Work goes on with the value of the first part, or fails with it. -/
theorem follows_bind :
    Follows (w >>= f) xs out ↔
      (∃ ys zs a, xs = ys ++ zs ∧ Follows w ys (.ok a) ∧ Follows (f a) zs out) ∨
      ∃ e, out = .error e ∧ Follows w xs (.error e) := by
  have hrun : ExceptT.run (w >>= f) = (ExceptT.run w).bind fun r => match r with
      | .ok a => ExceptT.run (f a)
      | .error e => .done (.error e) := by
    change (ExceptT.run w).bind _ = _
    congr 1
    funext r
    cases r <;> rfl
  rw [Follows, hrun, Program.follows_bind_iff]
  constructor
  · rintro ⟨ys, zs, r, hxs, hw, hf⟩
    cases r with
    | ok a => exact .inl ⟨ys, zs, a, hxs, hw, hf⟩
    | error e =>
      obtain ⟨rfl, rfl⟩ := Program.follows_done_iff.mp hf
      rw [List.append_nil] at hxs
      exact .inr ⟨e, rfl, hxs ▸ hw⟩
  · rintro (⟨ys, zs, a, hxs, hw, hf⟩ | ⟨e, rfl, hw⟩)
    · exact ⟨ys, zs, .ok a, hxs, hw, hf⟩
    · exact ⟨xs, [], .error e, (List.append_nil xs).symm, hw, .done _⟩

/-- Work whose outcome is looked at lets what follows go on. -/
theorem follows_attempt_bind {f : Except Error α → Work β} :
    Follows (attempt w >>= f) xs out ↔
      ∃ ys zs r, xs = ys ++ zs ∧ Follows w ys r ∧ Follows (f r) zs out := by
  have hrun : ExceptT.run (attempt w >>= f) =
      (ExceptT.run w).bind fun r => ExceptT.run (f r) := by
    change ((ExceptT.run w).bind _).bind _ = _
    rw [Program.bind_assoc]
    rfl
  rw [Follows, hrun, Program.follows_bind_iff]
  constructor
  · rintro ⟨ys, zs, r, hxs, hw, hf⟩
    exact ⟨ys, zs, r, hxs, hw, hf⟩
  · rintro ⟨ys, zs, r, hxs, hw, hf⟩
    exact ⟨ys, zs, r, hxs, hw, hf⟩

/-- Work goes on with a value that is there, and ends where there is none. -/
theorem follows_settle_bind {r : Except Error α} :
    Follows (settle r >>= f) xs out ↔
      match r with
      | .ok a => Follows (f a) xs out
      | .error e => xs = [] ∧ out = .error e := by
  cases r with
  | ok a => exact Iff.rfl
  | error e => exact follows_settle (r := .error e)

/-- Work goes on with the answer to a statement, or fails with it. -/
theorem follows_run_bind {s : Statement} {f : Json → Work β} :
    Follows (run s >>= f) xs out ↔
      ∃ reply rest, xs = ⟨.run s, reply⟩ :: rest ∧
        match reply with
        | .ok answer => Follows (f answer) rest out
        | .error e => rest = [] ∧ out = .error e := by
  rw [follows_bind]
  constructor
  · rintro (⟨ys, zs, a, rfl, hw, hf⟩ | ⟨e, rfl, hw⟩)
    · rw [follows_run.mp hw]
      exact ⟨.ok a, zs, rfl, hf⟩
    · rw [follows_run.mp hw]
      exact ⟨.error e, [], rfl, rfl, rfl⟩
  · rintro ⟨reply, rest, rfl, h⟩
    cases reply with
    | ok answer => exact .inl ⟨[_], rest, answer, rfl, follows_run.mpr rfl, h⟩
    | error e =>
      obtain ⟨rfl, rfl⟩ := h
      exact .inr ⟨e, rfl, follows_run.mpr rfl⟩

/-- The answer to a statement is read, and that is all. -/
theorem follows_run_settle {s : Statement} {f : Json → Except Error β} :
    Follows (run s >>= fun answer => settle (f answer)) xs out ↔
      ∃ reply, xs = [⟨.run s, reply⟩] ∧ out = reply.bind f := by
  rw [follows_run_bind]
  constructor
  · rintro ⟨reply, rest, rfl, h⟩
    cases reply with
    | ok answer =>
      obtain ⟨rfl, rfl⟩ := follows_settle.mp h
      exact ⟨.ok answer, rfl, rfl⟩
    | error e =>
      obtain ⟨rfl, rfl⟩ := h
      exact ⟨.error e, rfl, rfl⟩
  · rintro ⟨reply, rfl, rfl⟩
    cases reply with
    | ok answer => exact ⟨.ok answer, [], rfl, follows_settle.mpr ⟨rfl, rfl⟩⟩
    | error e => exact ⟨.error e, [], rfl, rfl, rfl⟩

end Sequence

end Steward.Database.Work

/-! ## 3. Connections -/

namespace Steward.Database

variable [Json.Room] {d : Database} {s : Statement}

/-- A statement whose document can be written is run on a connection of the pool. -/
theorem run_of_writable (hd : d.connected = true) (hs : s.obstacle? = none) :
    d.run s = Work.run s := by
  rw [run, if_pos hd, hs]

/-- Without a pool of connections nothing is sent. -/
theorem run_of_unconnected (hd : d.connected = false) :
    d.run s = Work.settle (.error .noPool) := by
  rw [run, hd, if_neg Bool.false_ne_true]
  rfl

end Steward.Database
