import Interfold.Contracts.ExitQueue.Taking
import Interfold.Contracts.Bonding.Obligations
import Interfold.Contracts.Bonding.CapacityBound
import Interfold.Contracts.Registry.TreeSlots
import Interfold.Contracts.Fold.Claims
import Interfold.Contracts.Staking.VoteSupply
import Interfold.Events.Hlc
import Interfold.Events.History
import Interfold.Events.Replay
import Interfold.Events.SnapshotBuffer
import Interfold.Sortition.NodeRegistry
import Interfold.Sortition.TicketSelection
import Interfold.Sortition.Failover
import Interfold.Slashing.QuorumEvidence
import Interfold.Slashing.EarlyVotes
import Interfold.ParityMatrix
import Interfold.Prover.VerificationPartition
import Interfold.Aggregator.PlaintextRuns
import Interfold.Contracts.Verifiers.ThresholdDecryption
import Interfold.Keyshare.RosterAcceptance
import Interfold.Circuits.BoundedMod
import Interfold.Circuits.HostProduct
import Interfold.Circuits.ScaledQuotient
import Interfold.Net.SeenIds
