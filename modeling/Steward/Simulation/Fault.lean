import Steward.Store.Memory

/-!
# Faults of a simulated store

A fault disturbs the next calls of one method of the store: a call fails, or another writer gets in
before it.
-/

namespace Steward.Simulation

/-- What a store is called for. -/
inductive StoreMethod where
  | getResource
  | listResources
  | dueResources
  | getSecret
  | updateStatus
  | addFinalizer
  | removeFinalizer
  | schedule
  deriving DecidableEq, Repr

/-- What happens to a call. -/
inductive Disturbance where
  | fail (failure : Failure)
  /-- Another writer raises the version of the resources of a name. -/
  | touch
  /-- Another writer removes the resources of a name. -/
  | remove
  deriving DecidableEq, Repr

/-- A disturbance of calls of a method. -/
structure Fault where
  method : StoreMethod
  /-- What the call has to be about, if this matters. -/
  name : Option String := none
  /-- The name of the resources that the other writer changes; that of the call unless given. -/
  target : Option String := none
  disturbance : Disturbance
  times : Int := 1
  deriving DecidableEq, Repr

/-- The fault disturbs a call of the method about the name. -/
def Fault.applies (f : Fault) (method : StoreMethod) (name : Option String) : Bool :=
  f.method == method && 0 < f.times && (f.name.isNone || f.name == name)

/-- Use up the first fault that disturbs a call. -/
def takeFault (method : StoreMethod) (name : Option String) :
    List Fault → Option (Fault × List Fault)
  | [] => none
  | f :: rest =>
    if f.applies method name then some (f, { f with times := f.times - 1 } :: rest)
    else (takeFault method name rest).map fun (g, rest) => (g, f :: rest)

/-- Raise the version of the resources of a name. -/
def touch (s : MemoryStore) (name : String) : MemoryStore :=
  { s with resources := s.resources.map fun r =>
      if r.name = name then { r with version := r.version + 1 } else r }

/-- Remove the resources of a name. -/
def purge (s : MemoryStore) (name : String) : MemoryStore :=
  { s with resources := s.resources.filter fun r => r.name != name }

/-- What a fault does before a call about `name`: the call fails, or the store is changed. -/
def Fault.strike (f : Fault) (name : Option String) (s : MemoryStore) :
    Except Failure Unit × MemoryStore :=
  let target := f.target.getD (f.name.getD (name.getD ""))
  match f.disturbance with
  | .fail e => (.error e, s)
  | .touch => (.ok (), touch s target)
  | .remove => (.ok (), purge s target)

end Steward.Simulation
