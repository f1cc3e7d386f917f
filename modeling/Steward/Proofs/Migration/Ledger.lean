import Steward.Migration.Run
import Steward.Proofs.Database.Work

/-!
# What a database keeps

A database keeps transactions: the statements that were run in one take effect together, when it is
committed, or not at all.  A statement that is run outside of any is a transaction of its own.  Any
request may fail.  A statement that fails has no effect; a transaction whose commit fails was kept
or not, and nobody can tell which; and a transaction that is rolled back leaves nothing behind, even
if rolling it back fails.  What is answered to the question for the versions on record is true.
-/

namespace Steward.Migration

open Database

/-! ## 1. Ledgers -/

/-- The transactions that took effect, and the statements of the one that is open. -/
structure Ledger where
  kept : List (List Statement)
  opened : Option (List Statement) := none
  deriving DecidableEq, Repr

/-- A statement that changes what a ledger holds: scripts and records do; the lock and the room for
the record of migrations are none of its business. -/
def counts : Statement → Bool
  | .script _ | .record .. => true
  | _ => false

/-- The version that a statement puts on record. -/
def versionOf? : Statement → Option String
  | .record version _ => some version
  | _ => none

namespace Ledger

/-- The versions on record. -/
def versions (l : Ledger) : List String := l.kept.flatten.filterMap versionOf?

/-- A statement takes effect, in the transaction that is open or by itself. -/
def add (l : Ledger) (s : Statement) : Ledger :=
  match l.opened with
  | some ss => { l with opened := some (ss ++ [s]) }
  | none => { l with kept := l.kept ++ [[s]] }

/-- The open transaction takes effect. -/
def close (l : Ledger) : Ledger := ⟨l.kept ++ l.opened.toList, none⟩

/-- The open transaction is undone. -/
def undo (l : Ledger) : Ledger := ⟨l.kept, none⟩

/-- The answer that lists these versions, a row each. -/
def rowsOf (versions : List String) : Json :=
  .array (versions.map fun v => .object [("version", .string v)])

/-- One request to the database, its reply, and what the database keeps after it. -/
inductive Takes : Ledger → Work.Exchange → Ledger → Prop where
  | statementFailed (l : Ledger) (s : Statement) (e : Error) : Takes l ⟨.run s, .error e⟩ l
  | told (l : Ledger) {vs : List String} (h : ∀ v, v ∈ vs ↔ v ∈ l.versions) :
      Takes l ⟨.run .recorded, .ok (rowsOf vs)⟩ l
  | counted (l : Ledger) {s : Statement} (h : counts s = true) (answer : Json) :
      Takes l ⟨.run s, .ok answer⟩ (l.add s)
  | passed (l : Ledger) {s : Statement} (h : counts s = false) (hs : s ≠ .recorded)
      (answer : Json) : Takes l ⟨.run s, .ok answer⟩ l
  | beginFailed (l : Ledger) (e : Error) : Takes l ⟨.begin, .error e⟩ l
  | begun (l : Ledger) : Takes l ⟨.begin, .ok ()⟩ { l with opened := some [] }
  | committed (l : Ledger) : Takes l ⟨.commit, .ok ()⟩ l.close
  | commitKept (l : Ledger) (e : Error) : Takes l ⟨.commit, .error e⟩ l.close
  | commitLost (l : Ledger) (e : Error) : Takes l ⟨.commit, .error e⟩ l.undo
  | rolledBack (l : Ledger) (reply : Except Error Unit) : Takes l ⟨.rollback, reply⟩ l.undo

/-- Requests, one after the other. -/
inductive Answers : Ledger → List Work.Exchange → Ledger → Prop where
  | nil (l : Ledger) : Answers l [] l
  | cons {l mid l' : Ledger} {x : Work.Exchange} {xs : List Work.Exchange} :
      Takes l x mid → Answers mid xs l' → Answers l (x :: xs) l'

/-! ## 2. What a reply tells -/

section Takes

variable {l l' : Ledger} {s : Statement}

theorem takes_failed_iff {e : Error} : Takes l ⟨.run s, .error e⟩ l' ↔ l' = l := by
  constructor
  · intro h
    cases h
    rfl
  · rintro rfl
    exact .statementFailed _ s e

theorem takes_counted_iff (hs : counts s = true) {answer : Json} :
    Takes l ⟨.run s, .ok answer⟩ l' ↔ l' = l.add s := by
  constructor
  · intro h
    cases h with
    | told _ => cases hs
    | counted _ => rfl
    | passed h => exact absurd (h.symm.trans hs) Bool.false_ne_true
  · rintro rfl
    exact .counted l hs answer

theorem takes_passed_iff (hs : counts s = false) (hne : s ≠ .recorded) {answer : Json} :
    Takes l ⟨.run s, .ok answer⟩ l' ↔ l' = l := by
  constructor
  · intro h
    cases h with
    | told _ => exact absurd rfl hne
    | counted h => exact absurd (hs.symm.trans h) Bool.false_ne_true
    | passed _ => rfl
  · rintro rfl
    exact .passed _ hs hne answer

theorem takes_recorded_iff {answer : Json} :
    Takes l ⟨.run .recorded, .ok answer⟩ l' ↔
      l' = l ∧ ∃ vs, answer = rowsOf vs ∧ ∀ v, v ∈ vs ↔ v ∈ l.versions := by
  constructor
  · intro h
    cases h with
    | told h => exact ⟨rfl, _, rfl, h⟩
    | counted h => cases h
    | passed _ h => exact absurd rfl h
  · rintro ⟨rfl, vs, rfl, h⟩
    exact .told _ h

theorem takes_beginFailed_iff {e : Error} : Takes l ⟨.begin, .error e⟩ l' ↔ l' = l := by
  constructor
  · intro h
    cases h
    rfl
  · rintro rfl
    exact .beginFailed _ e

theorem takes_begun_iff {u : Unit} :
    Takes l ⟨.begin, .ok u⟩ l' ↔ l' = { l with opened := some [] } := by
  constructor
  · intro h
    cases h
    rfl
  · rintro rfl
    exact .begun l

/-- A commit that fails may have been done. -/
theorem takes_commit {committed : Except Error Unit} (h : Takes l ⟨.commit, committed⟩ l') :
    l' = l.close ∨ committed ≠ .ok () ∧ l' = l.undo := by
  cases h with
  | committed => exact .inl rfl
  | commitKept e => exact .inl rfl
  | commitLost e => exact .inr ⟨nofun, rfl⟩

theorem takes_rollback_iff {undone : Except Error Unit} :
    Takes l ⟨.rollback, undone⟩ l' ↔ l' = l.undo := by
  constructor
  · intro h
    cases h
    rfl
  · rintro rfl
    exact .rolledBack l undone

end Takes

theorem answers_nil_iff {l l' : Ledger} : Answers l [] l' ↔ l' = l := by
  constructor
  · intro h
    cases h
    rfl
  · rintro rfl
    exact .nil _

theorem answers_cons_iff {l l' : Ledger} {x : Work.Exchange} {xs : List Work.Exchange} :
    Answers l (x :: xs) l' ↔ ∃ mid, Takes l x mid ∧ Answers mid xs l' := by
  constructor
  · intro h
    cases h with
    | cons hx hxs => exact ⟨_, hx, hxs⟩
  · rintro ⟨mid, hx, hxs⟩
    exact .cons hx hxs

theorem answers_append_iff {l l' : Ledger} {xs ys : List Work.Exchange} :
    Answers l (xs ++ ys) l' ↔ ∃ mid, Answers l xs mid ∧ Answers mid ys l' := by
  induction xs generalizing l with
  | nil =>
    rw [List.nil_append]
    simp only [answers_nil_iff, exists_eq_left]
  | cons x xs ih =>
    rw [List.cons_append]
    simp only [answers_cons_iff, ih]
    constructor
    · rintro ⟨next, hx, mid, hxs, hys⟩
      exact ⟨mid, ⟨next, hx, hxs⟩, hys⟩
    · rintro ⟨mid, ⟨next, hx, hxs⟩, hys⟩
      exact ⟨next, hx, mid, hxs, hys⟩

end Ledger

end Steward.Migration
