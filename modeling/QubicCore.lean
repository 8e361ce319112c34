import QubicCore.Spectrum.Digest
import QubicCore.Spectrum.Dust
import QubicCore.Assets.Table
import QubicCore.ContractCore.Digest
import QubicCore.ContractCore.Rollback
import QubicCore.Ticking.NextTickVotes
import QubicCore.Transactions.Debits
import QubicCore.Proposals.Isolation
import QubicCore.Proposals.ScalarMean
import QubicCore.Mining.FutureComputors
import QubicCore.Contracts.Qswap.Run
import QubicCore.Contracts.MsVault.Solvency
import QubicCore.Oracle.Points
import QubicCore.Oracle.Quorum
import QubicCore.Ticking.ExecutionFeeReports
import QubicCore.Contracts.Escrow.Settlement
import QubicCore.Contracts.QBond.Run
import QubicCore.Contracts.Random.Entropy
import QubicCore.Qpi.Dividends
import QubicCore.Ticking.StableComputorIndex
import QubicCore.Ticking.TickStorage
import QubicCore.Revenue.Window
import QubicCore.Revenue.Issuance
import QubicCore.Extensions.TickFork.Replay
import QubicCore.Mining.AntColony.Forest
import QubicCore.Mining.AntColony.Export
import QubicCore.Contracts.VottunBridge
import QubicCore.Extensions.DiskShadow
import QubicCore.Network.MessageQueues
