import Steward.Json.Access
import Steward.Json.Printer
import Steward.Simulation.World

/-!
# Simulated worlds as documents

How secrets, faults, aggregators and adapters of a simulated world are written down.
-/

namespace Steward.Simulation

/-! ## 1. The store -/

/-- Stored values of a secret: raw ones, and before these plain ones, put into their stored form. -/
def secretData (v : Json) : SecretData :=
  Table.setAll (v.texts "data") (Secret.encodeAll (v.texts "values"))

/-- Put a new resource into the store; what is null is not given. -/
def create (s : Simulation) (v : Json) : Except ReadError Simulation := do
  let given := v.asMembers.filter fun m =>
    m.1 ∈ ["kind", "namespace", "name", "finalizers", "spec", "status"] && !m.2.isNull
  let r ← Resource.ofMembers given
  let deletion := if v.flagOr "deleting" false then some s.now else none
  return { s with store := s.store.create { r with deletion } }

/-- The methods of a store by name. -/
def storeMethods : Table StoreMethod :=
  [("get_resource", .getResource), ("list_resources", .listResources),
    ("get_resources_needing_reconciliation", .dueResources), ("get_secret", .getSecret),
    ("update_status", .updateStatus), ("add_finalizer", .addFinalizer),
    ("remove_finalizer", .removeFinalizer), ("schedule_reconcile", .schedule)]

/-- The kinds of failure that a fault may have. -/
def faultKinds : List String := ["RuntimeError", "ValueError", "TimeoutError"]

/-- What a fault does. -/
def disturbance (v : Json) : Disturbance :=
  match v.textAt "action" with
  | "touch" => .touch
  | "remove" => .remove
  | _ =>
    let kind := v.textAt "kind"
    .fail (.ofKind (if kind ∈ faultKinds then kind else "RuntimeError") (v.textAt "message"))

/-- A fault, if its method is one of a store. -/
def fault? (v : Json) : Option Fault := do
  let method ← Table.get? storeMethods (v.textAt "method")
  return { method, name := v.text? "name", target := v.text? "target"
           disturbance := disturbance v, times := (v.int? "times").getD 1 }

/-! ## 2. Aggregators -/

/-- The body of an answer: a text as it is, any other document as its text. -/
def body : Option Json → String
  | some (.string s) => s
  | some v => v.text
  | none => ""

/-- An answer that is given instead of the usual one. -/
def override (v : Json) : Override where
  method := v.textAt "method"
  times := (v.int? "times").getD 1
  answer := match v.text? "raise" with
    | some text => .error (.transport text)
    | none =>
      if (v.field "timeout").isBlank then
        .ok ⟨(v.int? "status").getD 200, body (v.get? "body")⟩
      else .error (.timeout "")

def server (v : Json) : Server where
  url := v.textAt "url"
  apps := v.items "apps"
  nextId := (v.int? "next_id").getD 1
  overrides := (v.items "overrides").map override

/-! ## 3. Adapters -/

/-- A member of the adapter's own, unless the document has it; null makes it unset. -/
def updated {α : Type} (v : Json) (key : String) (c : Codec α) (old : Option α) :
    Except ReadError (Option α) :=
  match v.get? key with
  | some w => (c.nullable.read w).toExcept key
  | none => .ok old

/-- Methods that fail from now on, or fail no longer. -/
def tellErrors (a : Adapter) (errors : Json.Members) : Adapter :=
  errors.foldl (fun a (name, v) =>
    match AdapterMethod.ofName? name with
    | none => a
    | some method => a.setError method (if v.isNull then none
        else some (.ofKind (v.textOr "kind" "AdapterError") (v.textAt "message")))) a

/-- Change an adapter as told. -/
def tell (a : Adapter) (v : Json) : Except ReadError Adapter := do
  let capabilities ← updated v "caps" Capabilities.codec (some a.capabilities)
  let health ← updated v "health" ServiceHealth.codec (some a.health)
  let state ← updated v "state" ServiceState.codec a.state
  let changeSet ← updated v "change_set" ChangeSet.codec a.changeSet
  let applyReport ← updated v "apply_result" ApplyReport.codec a.applyReport
  let directReport ← updated v "direct_result" ApplyReport.codec a.directReport
  return tellErrors
    { a with
      version := v.textOr "version" a.version
      capabilities := capabilities.getD {}
      state, changeSet, applyReport, directReport
      health := health.getD {} } (v.members "errors")

/-- A new adapter for a service. -/
def newAdapter (variant service : String) : Adapter :=
  if variant = "plain" then .plain service
  else if variant = "unreachable" then .unreachable service
  else .empty service

/-- Register an adapter where there is none or another one is wanted, and change it as told. -/
def setAdapter (s : Simulation) (v : Json) : Except ReadError Simulation := do
  let service := v.textOr "app" "sonarr"
  let fresh := newAdapter (v.textAt "class") service
  let a := if v.has "class" then fresh else (Table.get? s.adapters service).getD fresh
  return { s with adapters := Registry.register s.adapters service (← tell a v) }

/-! ## 4. Time -/

/-- Why the clock cannot be moved. -/
inductive ClockError where
  | infinite
  | undefined
  /-- Only a number can count seconds. -/
  | notNumber (value : Json)
  /-- A number of days that is too great even to be named. -/
  | uncountable
  | tooManyDays (days : Int)
  | outOfCalendar
  deriving DecidableEq, Repr

/-- The greatest number of days that the clock may be moved by. -/
def dayLimit : Nat := 999999999

/-- The text of the error. -/
def ClockError.message : ClockError → String
  | .infinite => "cannot convert float infinity to integer"
  | .undefined => "cannot convert float NaN to integer"
  | .notNumber v => "unsupported type for timedelta seconds component: " ++ v.typeWord
  | .uncountable => "Python int too large to convert to C int"
  | .tooManyDays days => s!"days={days}; must have magnitude <= {dayLimit}"
  | .outOfCalendar => "date value out of range"

/-- Seconds as microseconds.  Of a binary number, the part before the point is counted exactly; the
part after it is multiplied in binary arithmetic, and the sum goes to the nearest whole number, a tie
to the even one. -/
def microseconds : Json → Except ClockError Int
  | .float x =>
    if x.isNaN then .error .undefined
    else if !x.isFinite then .error .infinite
    else
      let whole := x.truncate
      let part := (x.minus whole).scale 1000000 1
      let exact := whole.natAbs * 1000000 * part.magnitude.2 + part.magnitude.1
      let n : Int := Binary64.nearestEven exact part.magnitude.2
      .ok (if x.negative then -n else n)
  | .int n => .ok (n * 1000000)
  | .bool b => .ok (b.toInt * 1000000)
  | v => .error (.notNumber v)

/-- The days of a number of microseconds, if the clock may be moved by so many. -/
def checkDays (n : Int) : Except ClockError Unit :=
  let days := n / 86400000000
  if days < -2147483648 ∨ 2147483648 ≤ days then .error .uncountable
  else if dayLimit < days.natAbs then .error (.tooManyDays days)
  else .ok ()

/-- Move the clock by a number of seconds; it stays within the years 1 to 9999. -/
def moveClock (s : Simulation) (seconds : Json) : Except ClockError Simulation := do
  let n ← microseconds seconds
  checkDays n
  let clock := s.clock + n
  match Timestamp.ofMicroseconds clock with
  | .ok _ => return { s with clock }
  | .error _ => throw .outOfCalendar

end Steward.Simulation
