import StallSim.Scenario
import StallSim.Stored
import StallSim.Proofs.SourceOrder
import StallSim.Proofs.Conservation
import StallSim.Proofs.Clock
import StallSim.Proofs.Stopping
import StallSim.Proofs.Visibility
import StallSim.Proofs.Lifecycle
import StallSim.Proofs.Panics
import StallSim.Proofs.Refinement
import StallSim.Proofs.Attribution
import StallSim.Proofs.Causes
import StallSim.Proofs.Finality
import StallSim.Proofs.Contiguity
import StallSim.Proofs.Separation
import StallSim.Proofs.Counting
import StallSim.Proofs.Resets
import StallSim.Proofs.Copies
import StallSim.Proofs.Erasure
import StallSim.Proofs.Seeding
import StallSim.Proofs.Bypass
import StallSim.Proofs.Refusals
import StallSim.Proofs.Termination
import StallSim.Proofs.Limits
import StallSim.Proofs.Arena
import StallSim.Proofs.Deferred
import StallSim.Proofs.Digests
import StallSim.Proofs.Registry
