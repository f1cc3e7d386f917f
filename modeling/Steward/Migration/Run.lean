import Steward.Database.Row

/-!
# Running migrations

Migrations that are not on record are applied in order, each in a transaction of its own together
with its record.  All of it happens under a lock, which is released however the run ends.

This is `run_migrations` with `_applied_versions` and `_apply`.
-/

namespace Steward.Migration

open Database

/-- Apply a migration and record it, both or neither. -/
def apply (m : Migration) : Work Unit := do
  Work.begin
  let body : Work Unit := do
    let _ ← Work.run (.script m.script)
    let _ ← Work.run (.record m.version m.filename)
  match ← Work.attempt body with
  | .ok _ => Work.commit
  | .error e =>
    Work.rollback
    throw e

/-- Apply migrations in order, up to the first that fails. -/
def applyAll : List Migration → Work Unit
  | [] => return ()
  | m :: rest => do
    apply m
    applyAll rest

/-- The versions on record. -/
def recordedVersions : Work (List Json) := do
  let _ ← Work.run .prepareRecord
  let answer ← Work.run .recorded
  Work.settle (do (← rows answer).mapM fun row => do asKey (← column "version" row))

/-- The migrations that are not on record. -/
def pending (recorded : List Json) (ms : List Migration) : List Migration :=
  ms.filter fun m => !recorded.contains (.string m.version)

/-- Apply what is not on record, and count it. -/
def applyPending (ms : List Migration) : Work Nat := do
  let due := pending (← recordedVersions) ms
  applyAll due
  return due.length

/-- Apply what is not on record, under the lock. -/
def run (ms : List Migration) : Work Nat := do
  let _ ← Work.run .lock
  let outcome ← Work.attempt (applyPending ms)
  let _ ← Work.run .unlock
  Work.settle outcome

/-- Run the migrations of a directory that may be missing (`run_migrations`). -/
def runIn (path : String) (entries : Option (List Entry)) : Work Nat := do
  run (← Work.settle ((discoverIn path entries).mapError .directory))

end Steward.Migration
