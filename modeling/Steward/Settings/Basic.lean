/-!
# Settings

How the controller itself is set up: the database it keeps resources in, the pace of its loops, and
its log level.

These are `Config`, `DatabaseConfig`, `ControllerConfig` and `LoggingConfig`.
-/

namespace Steward.Settings

/-- The database that holds resources and secrets. -/
structure Database where
  host : String := "localhost"
  port : Int := 5432
  database : String := "arr_operator"
  user : String := "arr_operator"
  password : String := ""
  minPoolSize : Int := 2
  maxPoolSize : Int := 10
  deriving DecidableEq, Repr

/-- The pace and limits of the controller; intervals and limits of time are in seconds. -/
structure Controller where
  pollInterval : Int := 5
  maxConcurrentReconciles : Int := 5
  batchSize : Int := 20
  /-- After a pass that succeeded. -/
  defaultRequeueInterval : Int := 300
  /-- After a pass that failed. -/
  errorRequeueInterval : Int := 30
  coordinatorInterval : Int := 60
  reconcileTimeout : Int := 120
  httpTimeout : Int := 30
  /-- What leads the names of all that the controller manages or registers. -/
  registrationPrefix : String := "arr-operator"
  /-- Takes the place of the aggregator's URL in registrations. -/
  aggregatorUrlOverride : Option String := none
  deriving DecidableEq, Repr

structure Logging where
  level : String := "INFO"
  deriving DecidableEq, Repr

end Steward.Settings

namespace Steward

structure Settings where
  database : Settings.Database := {}
  controller : Settings.Controller := {}
  logging : Settings.Logging := {}
  deriving DecidableEq, Repr

end Steward
