/-!
# Programs that ask

A pass of the controller works with others: the store, the services, the aggregator.  It is written
as a program that asks them one request at a time and goes on with what they reply.  A program is a
tree, so that the same pass can be run in a given world (`Program.run`), or followed along any
replies at all (`Program.Follows`), and a world may do anything between two requests.
-/

namespace Steward

/-- The requests that a program can make, and what is replied to each. -/
structure Signature where
  Request : Type
  Reply : Request → Type

/-- A program that ends with an `α`. -/
inductive Program (S : Signature) (α : Type) where
  | done (value : α)
  | ask (request : S.Request) (next : S.Reply request → Program S α)

namespace Program

variable {S : Signature} {α β γ σ : Type}

/-! ## 1. Sequence -/

/-- Go on with the value. -/
def bind : Program S α → (α → Program S β) → Program S β
  | .done a, f => f a
  | .ask r next, f => .ask r fun reply => (next reply).bind f

instance : Monad (Program S) where
  pure := .done
  bind := bind

/-- Make a request and end with the reply. -/
def request (r : S.Request) : Program S (S.Reply r) := .ask r .done

@[simp] theorem bind_done (p : Program S α) : p.bind .done = p := by
  induction p with
  | done _ => rfl
  | ask r next ih => simp [bind, ih]

theorem bind_assoc (p : Program S α) (f : α → Program S β) (g : β → Program S γ) :
    (p.bind f).bind g = p.bind fun a => (f a).bind g := by
  induction p with
  | done _ => rfl
  | ask r next ih => simp [bind, ih]

instance : LawfulMonad (Program S) :=
  LawfulMonad.mk' (Program S) (fun p => bind_done p) (fun _ _ => rfl) (fun p f g => bind_assoc p f g)

/-! ## 2. Running -/

/-- A world: what is replied to a request, and how the world changes by it. -/
abbrev World (S : Signature) (σ : Type) := (r : S.Request) → σ → S.Reply r × σ

/-- Run a program in a world. -/
def run (world : World S σ) : Program S α → σ → α × σ
  | .done a, s => (a, s)
  | .ask r next, s =>
    let (reply, s) := world r s
    (next reply).run world s

theorem run_bind (world : World S σ) (p : Program S α) (f : α → Program S β) (s : σ) :
    (p.bind f).run world s = (f (p.run world s).1).run world (p.run world s).2 := by
  induction p generalizing s with
  | done _ => rfl
  | ask r next ih => simp [bind, run, ih]

/-! ## 3. Following replies -/

/-- A request with the reply that was given. -/
structure Exchange (S : Signature) where
  request : S.Request
  reply : S.Reply request

/-- The program makes exactly these requests, is given these replies, and ends with the value. -/
inductive Follows : Program S α → List (Exchange S) → α → Prop where
  | done (a : α) : Follows (.done a) [] a
  | ask {r : S.Request} {next : S.Reply r → Program S α} {reply : S.Reply r}
      {rest : List (Exchange S)} {a : α} :
      Follows (next reply) rest a → Follows (.ask r next) (⟨r, reply⟩ :: rest) a

theorem Follows.bind {p : Program S α} {f : α → Program S β} {xs ys : List (Exchange S)} {a : α}
    {b : β} (h : Follows p xs a) (k : Follows (f a) ys b) : Follows (p.bind f) (xs ++ ys) b := by
  induction h with
  | done _ => exact k
  | ask _ ih => exact .ask (ih k)

theorem Follows.of_bind {p : Program S α} {f : α → Program S β} {zs : List (Exchange S)} {b : β}
    (h : Follows (p.bind f) zs b) :
    ∃ xs ys a, zs = xs ++ ys ∧ Follows p xs a ∧ Follows (f a) ys b := by
  induction p generalizing zs with
  | done a => exact ⟨[], zs, a, rfl, .done a, h⟩
  | ask r next ih =>
    cases h with
    | ask h' =>
      obtain ⟨xs, ys, a, rfl, h₁, h₂⟩ := ih _ h'
      exact ⟨_ :: xs, ys, a, rfl, .ask h₁, h₂⟩

end Program

end Steward
