import Steward.Aggregator.Registration
import Steward.Compile.ClientUrl
import Steward.Json.Parser
import Steward.Json.Shape
import Steward.Managed
import Steward.Secret.Value

/-!
# Failures

All that can go wrong in a pass, by cause.  What a store, a service or an adapter raises on its own
account keeps its own kind and text (`raised`).

These are the exceptions that cross the borders between the program's parts.
-/

namespace Steward

/-- Why the answer of an aggregator cannot be used. -/
inductive AnswerError where
  | unreadable (body : String) (refusal : Json.Refusal)
  /-- A list was needed. -/
  | notList (answer : Json)
  /-- An object was needed as an entry of a list. -/
  | notEntry (entry : Json)
  | noId
  /-- A number was needed as an id. -/
  | idNotNumber (id : Json)
  | idNotNumeral (error : Text.NumeralError)
  deriving DecidableEq, Repr

/-- The text of the error. -/
def AnswerError.message : AnswerError → String
  | .unreadable body refusal => refusal.message body
  | .notList answer => answer.noEntries
  | .notEntry entry => "'" ++ entry.typeWord ++ "' object has no attribute 'get'"
  | .noId => "'id'"
  | .idNotNumber (.float x) =>
    if x.isNaN then "cannot convert float NaN to integer"
    else "cannot convert float infinity to integer"
  | .idNotNumber id =>
    "int() argument must be a string, a bytes-like object or a real number, not '" ++
      id.typeWord ++ "'"
  | .idNotNumeral e => e.message

/-- What can go wrong. -/
inductive Failure where
  /-- A write was based on a version of the resource that is no longer the stored one. -/
  | conflict (key : String) (version : Int)
  | secret (error : SecretError)
  | registration (error : RegistrationError)
  | answer (error : AnswerError)
  | managed (error : ManagedError)
  | compile (error : CompileError)
  /-- The transport to an aggregator failed. -/
  | transport (text : String)
  | timeout (text : String)
  | raised (kind text : String)
  deriving DecidableEq, Repr

/-- What is raised under a name; time that ran out is told from all else. -/
def Failure.ofKind (kind text : String) : Failure :=
  if kind = "TimeoutError" then .timeout text else .raised kind text

/-- The text of a failure. -/
def Failure.message : Failure → String
  | .conflict key version => s!"Conflict updating {key}: resource version {version} is stale"
  | .secret e => e.message
  | .registration e => e.message
  | .answer e => e.message
  | .managed e => e.message
  | .compile e => e.message
  | .transport text => text
  | .timeout text => text
  | .raised _ text => text

end Steward
