import Steward.Status.Condition

/-!
# Statuses

What the controller reports about a resource, kept beside its specification.  The registration
record belongs to the registration coordinator, everything else to the reconciliation of the
resource.

This is `ConfigStatus`; a `RegistrationRecord` is a `ProwlarrRegistration`, a `HealthSummary` a
`HealthStatus` and an `IssueSummary` a `HealthIssueStatus`.
-/

namespace Steward

open Block

variable [Validator]

/-! ## 1. Health -/

/-- A complaint of a service about itself (`HealthIssueStatus`). -/
structure IssueSummary where
  source : String
  type : String
  message : String
  wikiUrl : Option String
  deriving DecidableEq, Repr

def IssueSummary.block : Block IssueSummary IssueSummary :=
  IssueSummary.mk
    <$> defaulted "source" "source" .text "" (·.source)
    <*> defaulted "type" "type" .text "" (·.type)
    <*> defaulted "message" "message" .text "" (·.message)
    <*> optional "wikiUrl" "wiki_url" .text (·.wikiUrl)

def IssueSummary.codec : Codec IssueSummary :=
  IssueSummary.block.codec "HealthIssueStatus"

/-- The latest health report of a service (`HealthStatus`). -/
structure HealthSummary where
  healthy : Bool
  issueCount : Int
  errorCount : Int
  warningCount : Int
  lastCheck : Option Timestamp
  issues : List IssueSummary
  deriving DecidableEq, Repr

def HealthSummary.block : Block HealthSummary HealthSummary :=
  HealthSummary.mk
    <$> defaulted "healthy" "healthy" .flag true (·.healthy)
    <*> defaulted "issueCount" "issue_count" .whole 0 (·.issueCount)
    <*> defaulted "errorCount" "error_count" .whole 0 (·.errorCount)
    <*> defaulted "warningCount" "warning_count" .whole 0 (·.warningCount)
    <*> optional "lastCheck" "last_check" .timestamp (·.lastCheck)
    <*> defaulted "issues" "issues" IssueSummary.codec.list [] (·.issues)

def HealthSummary.codec : Codec HealthSummary := HealthSummary.block.codec "HealthStatus"

/-! ## 2. Registration -/

/-- Whether and as what a service is registered with an aggregator (`ProwlarrRegistration`). -/
structure RegistrationRecord where
  registered : Bool := false
  aggregator : Option String := none
  applicationId : Option Int := none
  lastSync : Option Timestamp := none
  message : Option String := none
  deriving DecidableEq, Repr

def RegistrationRecord.block : Block RegistrationRecord RegistrationRecord :=
  RegistrationRecord.mk
    <$> defaulted "registered" "registered" .flag false (·.registered)
    <*> optional "prowlarrName" "prowlarr_name" .text (·.aggregator)
    <*> optional "applicationId" "application_id" .whole (·.applicationId)
    <*> optional "lastSync" "last_sync" .timestamp (·.lastSync)
    <*> optional "message" "message" .text (·.message)

def RegistrationRecord.codec : Codec RegistrationRecord :=
  RegistrationRecord.block.codec "ProwlarrRegistration"

/-! ## 3. The status -/

/-- The status of a resource (`ConfigStatus`). -/
structure Status where
  conditions : Conditions := []
  connected : Bool := false
  serviceVersion : Option String := none
  lastReconcile : Option Timestamp := none
  lastAppliedHash : Option String := none
  observedGeneration : Option Int := none
  health : Option HealthSummary := none
  registration : Option RegistrationRecord := none
  unrealized : List String := []
  deriving DecidableEq, Repr

namespace Status

def block : Block Status Status :=
  Status.mk
    <$> defaulted "conditions" "conditions" Condition.codec.list [] (·.conditions)
    <*> defaulted "connected" "connected" .flag false (·.connected)
    <*> optional "serviceVersion" "service_version" .text (·.serviceVersion)
    <*> optional "lastReconcile" "last_reconcile" .timestamp (·.lastReconcile)
    <*> optional "lastAppliedHash" "last_applied_hash" .text (·.lastAppliedHash)
    <*> optional "observedGeneration" "observed_generation" .whole (·.observedGeneration)
    <*> optional "health" "health" HealthSummary.codec (·.health)
    <*> optional "prowlarrRegistration" "prowlarr_registration" RegistrationRecord.codec
      (·.registration)
    <*> defaulted "unrealized" "unrealized" Codec.text.list [] (·.unrealized)

def codec : Codec Status := block.codec "ConfigStatus"

/-- Read a stored status. -/
def ofMembers (ms : Json.Members) : Except ReadError Status :=
  (block.read ms).toExcept "ConfigStatus"

/-- The document that is stored. -/
def toMembers (s : Status) : Json.Members := block.write s

end Status

end Steward
