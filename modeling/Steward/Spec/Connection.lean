import Steward.Document.Block

/-!
# Connections and secret references

How a service is reached, which secrets hold its credentials, and how often it is looked after.

These are `ConnectionSpec`, `ReconciliationSpec` and `DownloadClientSpec`, with `SecretKeySelector`
and `CredentialsSecretRef`.
-/

namespace Steward.Spec

open Block

variable [Validator]

/-- One key of a secret in the namespace of the resource (`SecretKeySelector`). -/
structure KeyRef where
  name : String
  key : Option String
  deriving DecidableEq, Repr

def KeyRef.block : Block KeyRef KeyRef :=
  KeyRef.mk
    <$> required "name" "name" .text (·.name)
    <*> optional "key" "key" .text (·.key)

def KeyRef.codec : Codec KeyRef := KeyRef.block.codec "SecretKeySelector"

/-- Two keys of a secret that hold a user name and a password (`CredentialsSecretRef`). -/
structure CredentialsRef where
  name : String
  usernameKey : String
  passwordKey : String
  deriving DecidableEq, Repr

def CredentialsRef.block : Block CredentialsRef CredentialsRef :=
  CredentialsRef.mk
    <$> required "name" "name" .text (·.name)
    <*> defaulted "usernameKey" "username_key" .text "username" (·.usernameKey)
    <*> defaulted "passwordKey" "password_key" .text "password" (·.passwordKey)

def CredentialsRef.codec : Codec CredentialsRef := CredentialsRef.block.codec "CredentialsSecretRef"

/-- How to reach a service (`ConnectionSpec`). -/
structure Connection where
  url : String
  apiKeyRef : Option KeyRef
  insecureSkipVerify : Bool
  timeout : Option Nat
  deriving DecidableEq, Repr

def Connection.block : Block Connection Connection :=
  Connection.mk
    <$> required "url" "url" .text (·.url)
    <*> optional "apiKeySecretRef" "api_key_secret_ref" KeyRef.codec (·.apiKeyRef)
    <*> defaulted "insecureSkipVerify" "insecure_skip_verify" .flag false (·.insecureSkipVerify)
    <*> optionalBy "timeout" "timeout" .duration (·.timeout)

def Connection.codec : Codec Connection := Connection.block.codec "ConnectionSpec"

/-- How often a resource is reconciled, and whether at all (`ReconciliationSpec`). -/
structure Tuning where
  interval : Option Nat
  suspend : Bool
  deriving DecidableEq, Repr

def Tuning.block : Block Tuning Tuning :=
  Tuning.mk
    <$> optionalBy "interval" "interval" .duration (·.interval)
    <*> defaulted "suspend" "suspend" .flag false (·.suspend)

def Tuning.codec : Codec Tuning := Tuning.block.codec "ReconciliationSpec"

/-- A download client that a service is wired to (`DownloadClientSpec`). -/
structure DownloadClient where
  name : String
  url : String
  implementation : Option String
  credentialsRef : Option CredentialsRef
  category : Option String
  priority : Option Int
  enabled : Bool
  deriving DecidableEq, Repr

def DownloadClient.block : Block DownloadClient DownloadClient :=
  DownloadClient.mk
    <$> required "name" "name" .text (·.name)
    <*> required "url" "url" .text (·.url)
    <*> optional "implementation" "implementation" .text (·.implementation)
    <*> optional "credentialsSecretRef" "credentials_secret_ref" CredentialsRef.codec
      (·.credentialsRef)
    <*> optional "category" "category" .text (·.category)
    <*> optional "priority" "priority" .whole (·.priority)
    <*> defaulted "enabled" "enabled" .flag true (·.enabled)

def DownloadClient.codec : Codec DownloadClient := DownloadClient.block.codec "DownloadClientSpec"

end Steward.Spec
