import Steward.Coordinate
import Steward.Proofs.Run.World
import Steward.Reconcile.Lifecycle

/-!
# Actors

The parties of a store at large: reconciliation passes and coordination passes, each over a resource
as it is stored when the pass begins, and any other program that asks the store.
-/

namespace Steward.Run

open Pass

/-- Those that work on a store side by side. -/
inductive Actor where
  | reconciler (ctx : Reconcile.Context) (r : Resource)
  | coordinator (ctx : Coordinate.Context) (r : Resource)
  | other (p : Pass Unit)

namespace Actor

/-- What an actor ends with. -/
def Result : Actor → Type
  | .reconciler .. => Reconciliation
  | .coordinator .. => Coordination
  | .other _ => Unit

def program : (a : Actor) → Pass a.Result
  | .reconciler ctx r => Reconcile.reconcile ctx r
  | .coordinator ctx r => coordinate ctx r
  | .other p => p

def given : Actor → List Resource
  | .reconciler _ r => [r]
  | .coordinator _ r => [r]
  | .other _ => []

end Actor

/-- Actors come and go at any time. -/
@[reducible]
def actors : Cast := ⟨Actor, Actor.Result, Actor.program, Actor.given, fun _ => True⟩

variable {c : Cast} {w w₀ : World c}

/-- All parties are sound at any moment of a run. -/
theorem Runs.sound (hrun : Runs w₀ w) (hidle : w₀.tasks = []) : w.Sound := by
  induction hrun with
  | refl =>
    intro t ht
    rw [hidle] at ht
    cases ht
  | tail _ hstep ih => exact (hstep.spec ih).1

/-- What a party has asked so far, and what it asks next. -/
def Task.issued (t : Task c) : List Request := t.asked.map (·.request) ++ t.rest.pending

/-- What a sound party has issued begins what it asks in some whole pass. -/
theorem Task.Sound.exists_follows {s : MemoryStore} {t : Task c} (h : t.Sound s) :
    ∃ xs out after, Follows (c.pass t.party) [] xs out after ∧
      t.issued <+: xs.map (·.request) := by
  obtain ⟨xs, out, hprogram, hbegins⟩ := h.leads.exists_follows_pending
  obtain ⟨after, hfollows⟩ := follows_program.mp hprogram
  exact ⟨xs, out, after, hfollows, hbegins⟩

/-- A sound party that is done has been through its whole pass. -/
theorem Task.Sound.follows_of_done {s : MemoryStore} {t : Task c} (h : t.Sound s)
    {out : Except Failure (c.Result t.party)} (hdone : t.rest = .done out) :
    ∃ after, Follows (c.pass t.party) [] t.asked out after := by
  have hleads := h.leads
  rw [hdone] at hleads
  have hfollows := hleads.follows (.done out)
  rw [List.append_nil] at hfollows
  exact follows_program.mp hfollows

end Steward.Run
