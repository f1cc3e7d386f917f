import Steward.Failure
import Steward.Json.Equality

/-!
# A store in memory

Resources and secrets under the contract that the controller relies on: whatever is read is a copy,
every write raises the version, and a write of a status or a finalizer is refused unless the version
that it is based on is the stored one.

This is what `DatabaseManager` promises, without a database.
-/

namespace Steward

/-- Resources in the order in which they were created, and secrets by namespace and name. -/
structure MemoryStore where
  resources : List Resource := []
  secrets : List ((String × String) × SecretData) := []
  nextId : Int := 1
  deriving DecidableEq, Repr

namespace MemoryStore

/-! ## 1. Resources -/

/-- The resource stored under a kind, namespace and name. -/
def find? (s : MemoryStore) (kind ns name : String) : Option Resource :=
  s.resources.find? fun r => r.kind == kind && r.ns == ns && r.name == name

/-- Two resources have the same kind, namespace and name. -/
def sameKey (a b : Resource) : Bool := a.kind == b.kind && a.ns == b.ns && a.name == b.name

/-- Put a resource in the place of the one under its key, or at the end. -/
def put (s : MemoryStore) (r : Resource) : MemoryStore :=
  if s.resources.any (sameKey r) then
    { s with resources := s.resources.map fun q => if sameKey r q then r else q }
  else { s with resources := s.resources ++ [r] }

/-- Remove the resource under a key. -/
def remove (s : MemoryStore) (kind ns name : String) : MemoryStore :=
  { s with resources := s.resources.filter fun r =>
      !(r.kind == kind && r.ns == ns && r.name == name) }

/-- Store a new resource with the next id. -/
def create (s : MemoryStore) (r : Resource) : MemoryStore :=
  { s.put { r with id := some s.nextId } with nextId := s.nextId + 1 }

/-- Resources of a kind, in a namespace if one is given, sorted by namespace and name. -/
def list (s : MemoryStore) (kind : String) (ns : Option String) : List Resource :=
  let found := s.resources.filter fun r => r.kind == kind && (ns.isNone || ns == some r.ns)
  found.mergeSort fun a b => decide (a.ns < b.ns) || (a.ns == b.ns && decide (a.name ≤ b.name))

/-- The stored resource that a write may change, if it is still of the version that the write is
based on. -/
def current (s : MemoryStore) (r : Resource) : Except Failure Resource :=
  match s.find? r.kind r.ns r.name with
  | some stored =>
    if stored.version = r.version then .ok stored else .error (.conflict r.key r.version)
  | none => .error (.conflict r.key r.version)

/-- Store a changed resource with the next version. -/
def bump (s : MemoryStore) (r : Resource) : Resource × MemoryStore :=
  let r := { r with version := r.version + 1 }
  (r, s.put r)

/-! ## 2. Writes that are based on a version -/

def updateStatus (s : MemoryStore) (r : Resource) (status : Json.Members) :
    Except Failure Resource × MemoryStore :=
  match s.current r with
  | .error e => (.error e, s)
  | .ok stored =>
    let (r, s) := s.bump { stored with status }
    (.ok r, s)

def addFinalizer (s : MemoryStore) (r : Resource) (finalizer : String) :
    Except Failure Resource × MemoryStore :=
  match s.current r with
  | .error e => (.error e, s)
  | .ok stored =>
    let finalizers :=
      if stored.hasFinalizer finalizer then stored.finalizers
      else stored.finalizers ++ [finalizer]
    let (r, s) := s.bump { stored with finalizers }
    (.ok r, s)

/-- Remove a finalizer; a resource that is being deleted goes with its last one. -/
def removeFinalizer (s : MemoryStore) (r : Resource) (finalizer : String) :
    Except Failure (Option Resource) × MemoryStore :=
  match s.current r with
  | .error e => (.error e, s)
  | .ok stored =>
    let (r, s) := s.bump
      { stored with finalizers := stored.finalizers.filter (· != finalizer) }
    if r.beingDeleted && r.finalizers.isEmpty then (.ok none, s.remove r.kind r.ns r.name)
    else (.ok (some r), s)

/-! ## 3. Writes by users -/

/-- Replace a specification; the generation rises only if it differs. -/
def setSpec (s : MemoryStore) (kind ns name : String) (spec : Json.Members) : MemoryStore :=
  match s.find? kind ns name with
  | none => s
  | some r =>
    let changed := !Json.same (.object r.spec) (.object spec)
    (s.bump { r with spec, generation := if changed then r.generation + 1 else r.generation }).2

/-- Replace a status, whatever its version. -/
def setStatus (s : MemoryStore) (kind ns name : String) (status : Json.Members) : MemoryStore :=
  match s.find? kind ns name with
  | none => s
  | some r => (s.bump { r with status }).2

/-- Request a deletion; without finalizers the resource goes at once. -/
def requestDeletion (s : MemoryStore) (kind ns name : String) (now : Timestamp) : MemoryStore :=
  match s.find? kind ns name with
  | none => s
  | some r =>
    if r.finalizers.isEmpty then s.remove kind ns name
    else (s.bump { r with deletion := some (r.deletion.getD now) }).2

/-! ## 4. Secrets -/

def secret? (s : MemoryStore) (ns name : String) : Option SecretData :=
  s.secrets.lookup (ns, name)

def putSecret (s : MemoryStore) (ns name : String) (data : SecretData) : MemoryStore :=
  { s with secrets := ((ns, name), data) :: s.secrets.filter fun e => e.1 != (ns, name) }

def dropSecret (s : MemoryStore) (ns name : String) : MemoryStore :=
  { s with secrets := s.secrets.filter fun e => e.1 != (ns, name) }

end MemoryStore

end Steward
