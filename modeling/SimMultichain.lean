import SimMultichain.Framework.Body
import SimMultichain.Framework.StorageMap
import SimMultichain.Framework.Machine
import SimMultichain.Framework.Ledger
import SimMultichain.Framework.TotalLedger
import SimMultichain.Framework.Codec
import SimMultichain.Framework.Oracle
import SimMultichain.Framework.Channel
import SimMultichain.Framework.Sharing
import SimMultichain.Framework.Schedule
import SimMultichain.Spec.Exchange
import SimMultichain.Spec.UseCase
import SimMultichain.Impl.Frame
import SimMultichain.Impl.Storage
import SimMultichain.Impl.Renault
import SimMultichain.Impl.Insurance
import SimMultichain.Impl.Chain
import SimMultichain.Impl.System
import SimMultichain.Impl.CallCodec
import SimMultichain.Impl.Xcm
import SimMultichain.Impl.Executor
import SimMultichain.Impl.Runtime
import SimMultichain.Impl.Ethereum
import SimMultichain.Impl.VehicleManagement
import SimMultichain.Impl.UseCase
import SimMultichain.Impl.BlockStats
import SimMultichain.Impl.SenderProcess
import SimMultichain.Impl.Benchmark
import SimMultichain.Proof.Dispatch
import SimMultichain.Proof.Effect
import SimMultichain.Proof.Atomic
import SimMultichain.Proof.History
import SimMultichain.Proof.WriteOnce
import SimMultichain.Proof.Registration
import SimMultichain.Proof.AccidentLedger
import SimMultichain.Proof.Reporting
import SimMultichain.Proof.IpfsStatus
import SimMultichain.Proof.Reordering
import SimMultichain.Proof.Declarations
import SimMultichain.Proof.Interference
import SimMultichain.Proof.Received
import SimMultichain.Proof.Network
import SimMultichain.Proof.Refinement
import SimMultichain.Proof.Agreement
import SimMultichain.Proof.Contract
import SimMultichain.Proof.ContractLedger
import SimMultichain.Proof.ContractAuthority
import SimMultichain.Proof.PalletsUseCase
import SimMultichain.Proof.ContractUseCase
import SimMultichain.Proof.UseCase
import SimMultichain.Proof.Mirror
import SimMultichain.Proof.Executor
import SimMultichain.Proof.Barrier
import SimMultichain.Proof.BlockStats
import SimMultichain.Proof.CompositeKey
import SimMultichain.Proof.SenderProcess
import SimMultichain.Proof.PhaseBarrier
import SimMultichain.Proof.Accounts
import SimMultichain.Proof.Nonces
import SimMultichain.Proof.Sending
import SimMultichain.Proof.NewCar
import SimMultichain.Proof.Outcome
import SimMultichain.Proof.Completion
import SimMultichain.Proof.Coverage
import SimMultichain.Framework.SortedVec
import SimMultichain.Framework.HashChain
import SimMultichain.Impl.Configuration
import SimMultichain.Impl.Paras
import SimMultichain.Impl.Hrmp
import SimMultichain.Impl.Ump
import SimMultichain.Spec.Lines
import SimMultichain.Impl.Relay
import SimMultichain.Proof.Hrmp
import SimMultichain.Proof.RelaySteps
import SimMultichain.Proof.RelayLines
import SimMultichain.Proof.RelayRuns
import SimMultichain.Proof.RelayLimits
import SimMultichain.Proof.Ump
import SimMultichain.Proof.RelayUpward
import SimMultichain.Proof.RelayDownward
import SimMultichain.Proof.RelayConfiguration
