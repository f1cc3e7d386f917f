import Steward.Simulation.World

/-!
# What happened in a simulated world

The journal of a world, and the difference between its store and its schedule and those of an
earlier one.
-/

namespace Steward.Simulation

/-- What became of a stored resource. -/
inductive ResourceChange where
  | written (resource : Resource)
  | gone (resource : Resource)
  deriving DecidableEq, Repr

/-- The resource as it was last seen. -/
def ResourceChange.resource : ResourceChange → Resource
  | .written r => r
  | .gone r => r

/-- Resources come by kind, then by namespace, then by name. -/
def precedes (a b : Resource) : Bool :=
  decide (a.kind < b.kind) || (a.kind == b.kind &&
    (decide (a.ns < b.ns) || (a.ns == b.ns && decide (a.name ≤ b.name))))

/-- The stored resource is the one that was there before: same id, same version. -/
def isUnchanged (before : MemoryStore) (r : Resource) : Bool :=
  match before.find? r.kind r.ns r.name with
  | some old => old.id == r.id && old.version == r.version
  | none => false

/-- The resources that were written or removed between two states of a store. -/
def changesBetween (before after : MemoryStore) : List ResourceChange :=
  let written := after.resources.filter fun r => !isUnchanged before r
  let gone := before.resources.filter fun r => (after.find? r.kind r.ns r.name).isNone
  let changes := written.map ResourceChange.written ++ gone.map ResourceChange.gone
  changes.mergeSort fun a b => precedes a.resource b.resource

/-- The delays that were set or changed between two schedules. -/
def newDelays (before after : Table (Option Int)) : Table (Option Int) :=
  after.filter fun (key, delay) => Table.get? before key != some delay

/-- The calls of adapters, service by service. -/
def callsByService (s : Simulation) : List AdapterCall :=
  s.calls.mergeSort fun a b => decide (a.service ≤ b.service)

/-- Begin a new journal. -/
def clearJournal (s : Simulation) : Simulation :=
  { s with events := [], calls := [], requests := [], secretReads := [] }

end Steward.Simulation
