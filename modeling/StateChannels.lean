import StateChannels.Abi.Token
import StateChannels.Abi.Value
import StateChannels.Adjudicator.Call
import StateChannels.Adjudicator.Chain
import StateChannels.Adjudicator.Dispute
import StateChannels.Adjudicator.Payout
import StateChannels.Adjudicator.Storage
import StateChannels.Adjudicator.Transaction
import StateChannels.Allocation
import StateChannels.App
import StateChannels.Bytes
import StateChannels.Channel
import StateChannels.Checked
import StateChannels.Config
import StateChannels.Consensus
import StateChannels.Distinct
import StateChannels.Funding.Direct
import StateChannels.Funding.Error
import StateChannels.Funding.Ledger
import StateChannels.Funding.Negotiation
import StateChannels.Funding.Virtual
import StateChannels.Hash.Keccak
import StateChannels.Hash.Sha256
import StateChannels.Identifier
import StateChannels.Message
import StateChannels.Network
import StateChannels.Outbox
import StateChannels.Outcome
import StateChannels.Sampling
import StateChannels.Signing.Curve
import StateChannels.Signing.Ecdsa
import StateChannels.Signing.Signer
import StateChannels.State
import StateChannels.Store
import StateChannels.Support
import StateChannels.Table
import StateChannels.Uint256
import StateChannels.Wallet
import StateChannels.Wire.Conversion
import StateChannels.Wire.Field
import StateChannels.Wire.Frame
import StateChannels.Wire.Record
import StateChannels.Wire.Schema
import StateChannels.Wire.Varint
import StateChannels.Proofs.Adjudicator.Calls
import StateChannels.Proofs.Adjudicator.History
import StateChannels.Proofs.Adjudicator.Finality
import StateChannels.Proofs.Adjudicator.CompareAndSwap
import StateChannels.Proofs.Adjudicator.Provenance
import StateChannels.Proofs.Adjudicator.Conservation
import StateChannels.Proofs.Adjudicator.Conclusion
import StateChannels.Proofs.Support.Validation
import StateChannels.Proofs.Support.Moves
import StateChannels.Proofs.Support.Unanimous
import StateChannels.Proofs.Store.Entry
import StateChannels.Proofs.Store.History
import StateChannels.Proofs.Store.Convergence
import StateChannels.Proofs.Store.Enforcement
import StateChannels.Proofs.Store.Atomicity
import StateChannels.Proofs.Support.Overflow
import StateChannels.Proofs.Adjudicator.Overflow
import StateChannels.Proofs.Wallet.History
import StateChannels.Proofs.Wallet.Overflow
import StateChannels.Proofs.Wallet.Transitions
import StateChannels.Proofs.Negotiation.Steps
import StateChannels.Proofs.Negotiation.Parley
import StateChannels.Proofs.Negotiation.Agreement
import StateChannels.Proofs.Negotiation.Delivery
import StateChannels.Proofs.App.Chain
import StateChannels.Proofs.Consensus.Rule
import StateChannels.Proofs.Consensus.Unanimity
import StateChannels.Proofs.Wire.RoundTrip
import StateChannels.Proofs.Allocation.Amounts
import StateChannels.Proofs.Allocation.Release
import StateChannels.Proofs.Allocation.Entry
import StateChannels.Proofs.Allocation.Conservation
import StateChannels.Proofs.Allocation.Remainder
import StateChannels.Proofs.Allocation.Restoration
import StateChannels.Proofs.Consensus.Vote
import StateChannels.Proofs.Funding.Ledger
import StateChannels.Proofs.Funding.Proposal
import StateChannels.Proofs.Adjudicator.Waterfall
import StateChannels.Proofs.Adjudicator.Payments
import StateChannels.Proofs.Adjudicator.Settlement
import StateChannels.Proofs.Funding.Direct
import StateChannels.Proofs.Wire.Messages
import StateChannels.Proofs.Wire.Envelope
import StateChannels.Proofs.Abi.Layout
import StateChannels.Proofs.Abi.Alone
import StateChannels.Proofs.Abi.Binding
import StateChannels.Proofs.Funding.Virtual
import StateChannels.Proofs.Adjudicator.Shares
import StateChannels.Proofs.Wire.Lengths
import StateChannels.Proofs.Consensus.Data
import StateChannels.Proofs.Consensus.Steps
import StateChannels.Proofs.Support.Assembly
import StateChannels.Proofs.App.Phases
import StateChannels.Proofs.Outbox.Room
import StateChannels.Proofs.Wallet.Edits
import StateChannels.Proofs.Wallet.Regular
import StateChannels.Proofs.Hash.Schedule
import StateChannels.Proofs.Wallet.Sending
import StateChannels.Proofs.Wallet.Reporting
import StateChannels.Proofs.Outbox.Order
import StateChannels.Proofs.Negotiation.Attempts
import StateChannels.Proofs.Abi.Outcome
import StateChannels.Proofs.Funding.JointUpdate
import StateChannels.Proofs.Adjudicator.Transactions
import StateChannels.Proofs.Abi.Values
import StateChannels.Proofs.Network.Runs
