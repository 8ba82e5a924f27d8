import Evmos.Ante.Commission
import Evmos.Ante.Messages
import Evmos.Ante.Vesting
import Evmos.App.ModuleAccounts
import Evmos.App.SigVerify
import Evmos.App.TpsCounter
import Evmos.App.Upgrades
import Evmos.Application.Chain
import Evmos.Application.Genesis
import Evmos.Application.State
import Evmos.Application.TransferStack
import Evmos.Claims.Chain
import Evmos.Claims.Clock
import Evmos.Claims.EndAirdrop
import Evmos.Claims.Keeper
import Evmos.Claims.Query
import Evmos.Claims.Types
import Evmos.Epochs.Chain
import Evmos.Epochs.Keeper
import Evmos.Erc20.Chain
import Evmos.Erc20.Genesis
import Evmos.Erc20.Keeper
import Evmos.Erc20.Sanitize
import Evmos.Erc20.Types
import Evmos.Evm.Address
import Evmos.Evm.Bytes
import Evmos.Evm.Contracts
import Evmos.Feesplit.Chain
import Evmos.Feesplit.Keeper
import Evmos.Feesplit.Query
import Evmos.Feesplit.Types
import Evmos.Incentives.Chain
import Evmos.Incentives.Genesis
import Evmos.Incentives.Keeper
import Evmos.Incentives.Types
import Evmos.Inflation.Chain
import Evmos.Inflation.Genesis
import Evmos.Inflation.Keeper
import Evmos.Inflation.Types
import Evmos.Library.Dec
import Evmos.Library.DecOrder
import Evmos.Library.Index
import Evmos.Library.Interleave
import Evmos.Library.Lens
import Evmos.Library.Regexp
import Evmos.Library.Run
import Evmos.Library.Simulation
import Evmos.Library.Steps
import Evmos.Library.Store
import Evmos.Library.Timeline
import Evmos.Library.Token
import Evmos.Library.Union
import Evmos.Library.Wire
import Evmos.Library.WireReader
import Evmos.Proofs.Ante.Authz
import Evmos.Proofs.Ante.EthVesting
import Evmos.Proofs.App.SigVerify
import Evmos.Proofs.App.TpsCounter
import Evmos.Proofs.App.Upgrades
import Evmos.Proofs.Application.Accounting
import Evmos.Proofs.Application.Airdrop
import Evmos.Proofs.Application.Blocks
import Evmos.Proofs.Application.Genesis
import Evmos.Proofs.Application.Invariant
import Evmos.Proofs.Application.Locked
import Evmos.Proofs.Application.Moves
import Evmos.Proofs.Application.Refinement
import Evmos.Proofs.Application.TransferStack
import Evmos.Proofs.Claims.Claim
import Evmos.Proofs.Claims.Cleanup
import Evmos.Proofs.Claims.Clock
import Evmos.Proofs.Claims.Decay
import Evmos.Proofs.Claims.Delivery
import Evmos.Proofs.Claims.EndAirdrop
import Evmos.Proofs.Claims.Entitlement
import Evmos.Proofs.Claims.Genesis
import Evmos.Proofs.Claims.Invariant
import Evmos.Proofs.Claims.Merge
import Evmos.Proofs.Claims.Order
import Evmos.Proofs.Claims.Query
import Evmos.Proofs.Claims.Solvency
import Evmos.Proofs.Claims.Spending
import Evmos.Proofs.Claims.Trace
import Evmos.Proofs.Epochs.BeginBlocker
import Evmos.Proofs.Epochs.Clock
import Evmos.Proofs.Erc20.Backing
import Evmos.Proofs.Erc20.Bijection
import Evmos.Proofs.Erc20.Genesis
import Evmos.Proofs.Erc20.Hook
import Evmos.Proofs.Erc20.Outcome
import Evmos.Proofs.Erc20.Registry
import Evmos.Proofs.Erc20.Sanitize
import Evmos.Proofs.Erc20.Solvency
import Evmos.Proofs.Erc20.Spending
import Evmos.Proofs.Evm.Contracts
import Evmos.Proofs.Feesplit.Deployer
import Evmos.Proofs.Feesplit.Genesis
import Evmos.Proofs.Feesplit.Index
import Evmos.Proofs.Feesplit.MsgServer
import Evmos.Proofs.Feesplit.Payment
import Evmos.Proofs.Feesplit.Query
import Evmos.Proofs.Feesplit.Spelling
import Evmos.Proofs.Feesplit.Spending
import Evmos.Proofs.Incentives.Allocation
import Evmos.Proofs.Incentives.Distribution
import Evmos.Proofs.Incentives.Epoch
import Evmos.Proofs.Incentives.Gas
import Evmos.Proofs.Incentives.Genesis
import Evmos.Proofs.Incentives.Rewards
import Evmos.Proofs.Incentives.Spending
import Evmos.Proofs.Inflation.Conservation
import Evmos.Proofs.Inflation.Decline
import Evmos.Proofs.Inflation.Period
import Evmos.Proofs.Inflation.Provision
import Evmos.Proofs.Inflation.Restart
import Evmos.Proofs.Inflation.Skipped
import Evmos.Proofs.Inflation.Spending
import Evmos.Proofs.Proto.Records
import Evmos.Proofs.Recovery.OnRecvPacket
import Evmos.Proofs.Recovery.Spending
import Evmos.Proofs.Registries
import Evmos.Proofs.Vesting.Account
import Evmos.Proofs.Vesting.Clawback
import Evmos.Proofs.Vesting.Decoded
import Evmos.Proofs.Vesting.Genesis
import Evmos.Proofs.Vesting.Grants
import Evmos.Proofs.Vesting.Locked
import Evmos.Proofs.Vesting.MsgServer
import Evmos.Proofs.Vesting.Pointwise
import Evmos.Proofs.Vesting.Schedule
import Evmos.Proofs.Vesting.Spendable
import Evmos.Proofs.Vesting.Spending
import Evmos.Proto.Records
import Evmos.Recovery.Keeper
import Evmos.Recovery.Types
import Evmos.Sdk.Accounting
import Evmos.Sdk.Bank
import Evmos.Sdk.Duration
import Evmos.Sdk.Payments
import Evmos.Sdk.Types
import Evmos.Vesting.Account
import Evmos.Vesting.Chain
import Evmos.Vesting.Decoded
import Evmos.Vesting.MsgServer
import Evmos.Vesting.Schedule
