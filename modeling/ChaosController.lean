import ChaosController.Api.Connection
import ChaosController.Cluster
import ChaosController.Experiment.Wire
import ChaosController.Json.Printing
import ChaosController.Main
import ChaosController.Proofs.Deadline
import ChaosController.Proofs.FailStop
import ChaosController.Proofs.Gate
import ChaosController.Proofs.Lifetime
import ChaosController.Proofs.LostUpdate
import ChaosController.Proofs.OneShot
import ChaosController.Proofs.Recurring
import ChaosController.Proofs.Resumption
import ChaosController.Proofs.StatusPatch
import ChaosController.Proofs.Targeting
import ChaosController.Proofs.Terminality
import ChaosController.Proofs.Obligations
import ChaosController.Proofs.Provenance
import ChaosController.Proofs.Announcements
import ChaosController.Proofs.DurationText
import ChaosController.Proofs.Validation
import ChaosController.Proofs.Indifference
import ChaosController.Proofs.Revisits
import ChaosController.Proofs.RoundTrip
import ChaosController.Proofs.Waiting
import ChaosController.Proofs.Execution
import ChaosController.Proofs.ConditionHistory
import ChaosController.Proofs.Leniency
import ChaosController.Proofs.Selectors
import ChaosController.Proofs.Vanishing
