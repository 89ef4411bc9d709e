import Decommission.Diagnostics
import Decommission.Main
import Decommission.Proofs.Blob.CanonicalText
import Decommission.Proofs.Blob.ImageListing
import Decommission.Proofs.Blob.QueryLines
import Decommission.Proofs.Blob.Signing
import Decommission.Proofs.Blob.Uses
import Decommission.Proofs.Calendar.HttpDate
import Decommission.Proofs.ControlPlane.Addresses
import Decommission.Proofs.ControlPlane.Attempts
import Decommission.Proofs.ControlPlane.Listing
import Decommission.Proofs.ControlPlane.Missing
import Decommission.Proofs.ControlPlane.Polling
import Decommission.Proofs.Failure.Contexts
import Decommission.Proofs.MachineLock.Attempts
import Decommission.Proofs.MachineLock.Balance
import Decommission.Proofs.Program.Repetition
import Decommission.Proofs.Resource.Documents
import Decommission.Proofs.Resource.MachineId
import Decommission.Proofs.Simulation.Books
import Decommission.Proofs.Simulation.Leftovers
import Decommission.Proofs.Simulation.Settled
import Decommission.Proofs.Teardown.Absence
import Decommission.Proofs.Teardown.Addressing
import Decommission.Proofs.Teardown.Calls
import Decommission.Proofs.Teardown.Errands
import Decommission.Proofs.Teardown.References
import Decommission.Proofs.Teardown.Removal
import Decommission.Proofs.Teardown.Result
import Decommission.Proofs.Teardown.Secrecy
import Decommission.Proofs.Teardown.StoreUse
import Decommission.Proofs.Teardown.Together
import Decommission.Proofs.Teardown.Verdict
import Decommission.Proofs.Wait.Deadline
import Decommission.Proofs.Wait.Rounds
import Decommission.Simulation.Cloud
import Decommission.Simulation.Locker
import Decommission.Simulation.Rehearsal
import Decommission.Simulation.Wire
