import Steward.Proofs.Pass.Trace

/-!
# To whom requests go

What a pass may do is mostly said by whom it asks: the store, the secrets, an aggregator, the
registry of adapters, the adapter of a service, or the recorder of events.  A stage of a pass asks
few of them, and of those that ask the store, only three requests change it.
-/

namespace Steward.Pass

/-- Those who are asked. -/
inductive Addressee where
  | store
  | secrets
  | aggregator
  | registry
  | service
  | recorder
  deriving DecidableEq, Repr

namespace Request

/-- To whom a request goes. -/
def addressee : Request → Addressee
  | .getResource .. | .listResources .. | .updateStatus .. | .addFinalizer ..
  | .removeFinalizer .. => .store
  | .getSecret .. => .secrets
  | .http .. => .aggregator
  | .findAdapter .. => .registry
  | .connect .. | .discover .. | .currentState .. | .diff .. | .apply .. | .applyDirect ..
  | .health .. => .service
  | .record .. => .recorder

/-- The request changes what is stored, if it is carried out. -/
def writes : Request → Bool
  | .updateStatus .. | .addFinalizer .. | .removeFinalizer .. => true
  | _ => false

/-- The request goes to an adapter or to an aggregator. -/
def goesOut (r : Request) : Bool := r.addressee = .service ∨ r.addressee = .aggregator

/-- The request leaves statuses alone. -/
def SparesStatus (r : Request) : Prop :=
  ∀ resource status, r ≠ .updateStatus resource status

/-- The request leaves the store alone. -/
def SparesStore (r : Request) : Prop := r.writes = false

/-- The request goes to the adapter of a service, or looks it up. -/
def ToService (r : Request) : Prop := r.addressee = .registry ∨ r.addressee = .service

/-- The request does not go to an aggregator. -/
def SparesAggregator (r : Request) : Prop := r.addressee ≠ .aggregator

theorem addressee_of_writes {r : Request} (h : r.writes = true) : r.addressee = .store := by
  cases r with
  | updateStatus => rfl
  | addFinalizer => rfl
  | removeFinalizer => rfl
  | _ => cases h

theorem SparesStore.sparesStatus {r : Request} (h : r.SparesStore) : r.SparesStatus := by
  rintro resource status rfl
  cases h

theorem sparesStore_of_addressee {r : Request} (h : r.addressee ≠ .store) : r.SparesStore := by
  rw [SparesStore, ← Bool.not_eq_true]
  exact fun hwrites => h (addressee_of_writes hwrites)

theorem ToService.sparesStore {r : Request} (h : r.ToService) : r.SparesStore := by
  refine sparesStore_of_addressee ?_
  rcases h with h | h <;> (rw [h]; exact Addressee.noConfusion)

theorem ToService.sparesAggregator {r : Request} (h : r.ToService) : r.SparesAggregator := by
  rw [SparesAggregator]
  rcases h with h | h <;> (rw [h]; exact Addressee.noConfusion)

end Request

end Steward.Pass
