import Steward.Application
import Steward.Database.Store
import Steward.Proofs.Diff.Converge
import Steward.Proofs.Diff.Exact
import Steward.Proofs.Run.Ready
import Steward.Settings.Document
import Steward.Settings.Environment
import Steward.Simulation.Document
import Steward.Simulation.Report
import Steward.Simulation.Running
import Steward.Proofs.Aggregator.Client
import Steward.Proofs.Reconcile.Deletion
import Steward.Proofs.Reconcile.Guards
import Steward.Proofs.Run.Actors
import Steward.Proofs.Run.Lifecycle
import Steward.Proofs.Store.Keyed
import Steward.Proofs.Coordinate.Writes
import Steward.Proofs.Run.Updates
import Steward.Proofs.Coordinate.Decide
import Steward.Proofs.Coordinate.Turns
import Steward.Proofs.Coordinate.Exact
import Steward.Proofs.Coordinate.Listed
import Steward.Proofs.Run.Transitions
import Steward.Proofs.Coordinate.Conduct
import Steward.Proofs.Run.Exchanges
import Steward.Proofs.Run.Recorded
import Steward.Proofs.Document.Finite
import Steward.Proofs.Pass.Kept
import Steward.Proofs.Aggregator.Registration
import Steward.Proofs.Secret.Fixed
import Steward.Proofs.Coordinate.Around
import Steward.Proofs.Coordinate.Isolation
import Steward.Proofs.Aggregator.Host
import Steward.Proofs.Coordinate.Considered
import Steward.Proofs.Reconcile.Withdrawal
import Steward.Proofs.Store.Held
import Steward.Proofs.Run.Hosted
import Steward.Proofs.Run.Tended
import Steward.Proofs.Run.Orphans
import Steward.Proofs.Diff.Pruned
import Steward.Proofs.Fallible
import Steward.Proofs.Secret.Reference
import Steward.Proofs.Secret.Complete
import Steward.Proofs.Compile.Sections
import Steward.Proofs.Compile.Credentials
import Steward.Proofs.Compile.ListSettings
import Steward.Proofs.Compile.Withheld
import Steward.Proofs.Pass.Beside
import Steward.Proofs.Reconcile.Supplements
import Steward.Proofs.Aggregator.Applications
import Steward.Proofs.Controller.Flights
import Steward.Proofs.Controller.Queue
import Steward.Proofs.Controller.Stop
import Steward.Proofs.Timestamp.Calendar
import Steward.Proofs.Timestamp.Named
import Steward.Proofs.Document.Restores
import Steward.Proofs.Document.Forms
import Steward.Proofs.Database.Secrets
import Steward.Proofs.Migration.Run
import Steward.Proofs.Secret.Snapshot
import Steward.Proofs.Compile.Source
import Steward.Proofs.Status.Upsert
import Steward.Proofs.Compile.Pruning
import Steward.Proofs.Compile.Failures
import Steward.Proofs.Reconcile.Successor
import Steward.Proofs.Controller.Successor
import Steward.Proofs.Diff.Mappings
import Steward.Proofs.Run.Neighbours
import Steward.Proofs.Secret.Usable
import Steward.Proofs.Run.Announced
import Steward.Proofs.Compile.ClientUrl
import Steward.Proofs.Database.Generation
