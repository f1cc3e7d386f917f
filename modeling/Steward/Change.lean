import Steward.Capabilities
import Steward.State.Basic

/-!
# Changes

A change set moves a service from its observed to its desired configuration: items to create, then
items to update, then items to delete, in this order of application.

These are the program's `Change` and `ChangeSet`; an `ApplyReport` is an `ApplyResult`.
-/

namespace Steward

/-- An item that a change carries. -/
inductive Item where
  | quality (item : State.Quality)
  | downloadClient (item : State.DownloadClient)
  | indexer (item : State.Indexer)
  | rootFolder (item : State.RootFolder)
  | pathMapping (item : State.PathMapping)
  | aggregatorIndexer (item : State.AggregatorIndexer)
  | proxy (item : State.Proxy)
  | application (item : State.Application)
  /-- An item in the service's own terms. -/
  | document (value : Json)
  deriving DecidableEq, Repr

/-- One item to create, update or delete. -/
structure Change where
  kind : Section
  name : String
  id : Option Int := none
  payload : Option Item := none
  deriving DecidableEq, Repr

structure ChangeSet where
  creates : List Change := []
  updates : List Change := []
  deletes : List Change := []
  deriving DecidableEq, Repr

namespace ChangeSet

/-- Changes in the order of application (`all_changes`). -/
def all (c : ChangeSet) : List Change := c.creates ++ c.updates ++ c.deletes

def isEmpty (c : ChangeSet) : Bool := c.creates.isEmpty && c.updates.isEmpty && c.deletes.isEmpty

/-- The number of changes (`total_changes`). -/
def size (c : ChangeSet) : Nat := c.creates.length + c.updates.length + c.deletes.length

/-- Group by group, the changes of `c` and then those of `d`. -/
def append (c d : ChangeSet) : ChangeSet :=
  ⟨c.creates ++ d.creates, c.updates ++ d.updates, c.deletes ++ d.deletes⟩

instance : Append ChangeSet := ⟨append⟩

end ChangeSet

/-! ## 1. Results -/

/-- A change that failed, and why (`ApplyError`). -/
structure FailedChange where
  change : Change
  error : String
  deriving DecidableEq, Repr

/-- What came of applying a change set (`ApplyResult`). -/
structure ApplyReport where
  applied : Int := 0
  failed : Int := 0
  skipped : Int := 0
  errors : List FailedChange := []
  deriving DecidableEq, Repr

namespace ApplyReport

def success (r : ApplyReport) : Bool := r.failed == 0 && r.errors.isEmpty

def countApplied (r : ApplyReport) : ApplyReport := { r with applied := r.applied + 1 }

def addFailed (r : ApplyReport) (change : Change) (error : String) : ApplyReport :=
  { r with failed := r.failed + 1, errors := r.errors ++ [⟨change, error⟩] }

end ApplyReport

end Steward
