import Steward.Encoding.Base64
import Steward.Encoding.Utf8
import Steward.Table

/-!
# Values of secrets

A secret holds a value per key, stored as the base64 form of its UTF-8 bytes.

Values are read by `decode_value`; the errors are those of `SecretResolutionError`.
-/

namespace Steward

/-- The stored values of a secret by key. -/
abbrev SecretData := Table String

/-- Why a stored value is no text. -/
inductive DecodeError where
  | base64 (error : Base64.Error)
  | utf8 (error : Utf8.Malformed)
  deriving DecidableEq, Repr

def DecodeError.message : DecodeError → String
  | .base64 e => e.message
  | .utf8 e => e.message

/-- Why a secret cannot be resolved (`SecretResolutionError`). -/
inductive SecretError where
  | notFound (ns name purpose : String)
  | noKey (ns name key purpose : String)
  | undecodable (error : DecodeError)
  /-- No candidate for the key that a service is registered with is usable; what failed, in
  order. -/
  | noRegistrationKey (service name : String) (failures : List String)
  deriving DecidableEq, Repr

namespace SecretError

/-- What a value was needed for, in front of a message. -/
def lead (purpose : String) : String := if purpose.isEmpty then "" else purpose ++ ": "

/-- The text of the error. -/
def message : SecretError → String
  | .notFound ns name purpose => lead purpose ++ "secret " ++ ns ++ "/" ++ name ++ " not found"
  | .noKey ns name key purpose =>
    lead purpose ++ "key \"" ++ key ++ "\" not found in secret " ++ ns ++ "/" ++ name
  | .undecodable e => "secret value is not valid base64: " ++ e.message
  | .noRegistrationKey service name failures =>
    "could not resolve API key for " ++ service ++ "/" ++ name ++ ": " ++
      (if failures.isEmpty then "all candidates were empty" else "; ".intercalate failures)

end SecretError

namespace Secret

/-- The stored form of a value. -/
def encode (value : String) : String :=
  String.ofList (Base64.encode (Utf8.encode value.toList))

/-- The value of a stored form (`decode_value`). -/
def decode (stored : String) : Except SecretError String :=
  match Base64.decode stored.toList with
  | .error e => .error (.undecodable (.base64 e))
  | .ok bytes =>
    match Utf8.decode bytes with
    | .error e => .error (.undecodable (.utf8 e))
    | .ok cs => .ok (String.ofList cs)

/-- The stored form of all values. -/
def encodeAll (values : Table String) : SecretData := values.map fun (k, v) => (k, encode v)

end Secret

end Steward
