import Steward.Document.Block
import Steward.Settings.Basic

/-!
# Settings as documents

Settings are written with all their members; a member that is left out has its default.
-/

namespace Steward.Settings

open Block

def Database.codec : Codec Database :=
  (Database.mk
    <$> preset "host" .text "localhost" (·.host)
    <*> preset "port" .whole 5432 (·.port)
    <*> preset "database" .text "arr_operator" (·.database)
    <*> preset "user" .text "arr_operator" (·.user)
    <*> preset "password" .text "" (·.password)
    <*> preset "min_pool_size" .whole 2 (·.minPoolSize)
    <*> preset "max_pool_size" .whole 10 (·.maxPoolSize)).codec "DatabaseConfig"

def Controller.codec : Codec Controller :=
  (Controller.mk
    <$> preset "poll_interval" .whole 5 (·.pollInterval)
    <*> preset "max_concurrent_reconciles" .whole 5 (·.maxConcurrentReconciles)
    <*> preset "batch_size" .whole 20 (·.batchSize)
    <*> preset "default_requeue_interval" .whole 300 (·.defaultRequeueInterval)
    <*> preset "error_requeue_interval" .whole 30 (·.errorRequeueInterval)
    <*> preset "coordinator_interval" .whole 60 (·.coordinatorInterval)
    <*> preset "reconcile_timeout" .whole 120 (·.reconcileTimeout)
    <*> preset "http_timeout" .whole 30 (·.httpTimeout)
    <*> preset "registration_prefix" .text "arr-operator" (·.registrationPrefix)
    <*> preset "prowlarr_url_override" Codec.text.nullable none
      (·.aggregatorUrlOverride)).codec "ControllerConfig"

def Logging.codec : Codec Logging :=
  (Logging.mk <$> preset "level" .text "INFO" (·.level)).codec "LoggingConfig"

def codec : Codec Settings :=
  (Settings.mk
    <$> Block.preset "database" Settings.Database.codec {} (·.database)
    <*> Block.preset "controller" Settings.Controller.codec {} (·.controller)
    <*> Block.preset "logging" Settings.Logging.codec {} (·.logging)).codec "Config"

end Steward.Settings
