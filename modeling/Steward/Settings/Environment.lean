import Steward.Settings.Basic
import Steward.Table
import Steward.Text.Case
import Steward.Text.Numeral

/-!
# Settings from the environment

Every setting has a variable and a default, save for the password of the database, which has to be
set.  The first variable that cannot be read is reported: those of the database come first, then
those of the controller.

This is `from_env` of each of them.
-/

namespace Steward

/-- Variables with their values. -/
abbrev Environment := Table String

/-- Why settings cannot be read. -/
inductive SettingsError where
  | noPassword
  | numeral (error : Text.NumeralError)
  deriving DecidableEq, Repr

/-- The text of the error. -/
def SettingsError.message : SettingsError → String
  | .noPassword =>
    "DB_PASSWORD environment variable must be set. Database password cannot be empty."
  | .numeral e => e.message

namespace Environment

/-- The text of a variable. -/
def text (env : Environment) (variable_ default : String) : String :=
  (Table.get? env variable_).getD default

/-- The whole number of a variable. -/
def number (env : Environment) (variable_ : String) (default : Int) : Except SettingsError Int :=
  match Table.get? env variable_ with
  | some s => (Text.readInteger s).mapError .numeral
  | none => .ok default

end Environment

namespace Settings

def Database.ofEnvironment (env : Environment) : Except SettingsError Database := do
  let password := env.text "DB_PASSWORD" ""
  if password.isEmpty then throw .noPassword
  return { host := env.text "DB_HOST" "localhost"
           port := ← env.number "DB_PORT" 5432
           database := env.text "DB_NAME" "arr_operator"
           user := env.text "DB_USER" "arr_operator"
           password
           minPoolSize := ← env.number "DB_MIN_POOL_SIZE" 2
           maxPoolSize := ← env.number "DB_MAX_POOL_SIZE" 10 }

def Controller.ofEnvironment (env : Environment) : Except SettingsError Controller := do
  let url := env.text "PROWLARR_URL_OVERRIDE" ""
  return { pollInterval := ← env.number "POLL_INTERVAL" 5
           maxConcurrentReconciles := ← env.number "MAX_CONCURRENT_RECONCILES" 5
           batchSize := ← env.number "RECONCILE_BATCH_SIZE" 20
           defaultRequeueInterval := ← env.number "DEFAULT_REQUEUE_INTERVAL" 300
           errorRequeueInterval := ← env.number "ERROR_REQUEUE_INTERVAL" 30
           coordinatorInterval := ← env.number "COORDINATOR_INTERVAL" 60
           reconcileTimeout := ← env.number "RECONCILE_TIMEOUT" 120
           httpTimeout := ← env.number "HTTP_TIMEOUT" 30
           registrationPrefix := env.text "REGISTRATION_PREFIX" "arr-operator"
           aggregatorUrlOverride := if url.isEmpty then none else some url }

def Logging.ofEnvironment (env : Environment) : Logging where
  level := Text.upper (env.text "LOG_LEVEL" "INFO")

/-- All settings of an environment. -/
def ofEnvironment (env : Environment) : Except SettingsError Settings := do
  return { database := ← Settings.Database.ofEnvironment env
           controller := ← Settings.Controller.ofEnvironment env
           logging := Settings.Logging.ofEnvironment env }

/-- The settings in use, or those of the environment if there are none yet (`get_config`). -/
def inUse (held : Option Settings) (env : Environment) : Except SettingsError Settings :=
  match held with
  | some s => .ok s
  | none => ofEnvironment env

end Settings

end Steward
