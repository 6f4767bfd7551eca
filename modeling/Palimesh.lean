import Palimesh.Bft.StateRoots
import Palimesh.Bft.Crash
import Palimesh.State.DryRun
import Palimesh.Chain.BlobGas
import Palimesh.Chain.FinalityFlags
import Palimesh.Chain.SnapSyncCoherence
import Palimesh.Bft.EvidenceAccounting
import Palimesh.Governance.Slashing
import Palimesh.TxPool.Admission
import Palimesh.Wire.RoundTrip
import Palimesh.Dht.Identity
import Palimesh.Chain.FeeHeaders
import Palimesh.Chain.MemoryAdoption
import Palimesh.Chain.CanonicalReceipts
import Palimesh.Chain.ReplayProtection
import Palimesh.Chain.Speculation
import Palimesh.Contracts.BondLifecycle
import Palimesh.Contracts.ExactClaims
import Palimesh.Contracts.TreasurySafety
import Palimesh.Contracts.ValidatorSafety
import Palimesh.Settlement.RootBinding
import Palimesh.Settlement.SquareRoots
import Palimesh.Contracts.RollupOrder
import Palimesh.Contracts.EmissionSchedule
import Palimesh.Ipfs.ErasureRoundTrip
import Palimesh.Pose.ProofBinding
import Palimesh.Pose.RejectedReceipts
import Palimesh.Relayer.RelayOnce
import Palimesh.Rewards.ExactPayout
import Palimesh.Bft.RoundOutcome
import Palimesh.Chain.TipDemotion
import Palimesh.Chain.FeeBounds
import Palimesh.Chain.ForkChoice
import Palimesh.Chain.BlockHash
import Palimesh.Chain.StakeSelection
import Palimesh.Chain.SetSchedule
