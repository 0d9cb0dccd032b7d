import FogoYield.Model.Relayer.Reference
import FogoYield.Verification.Relayer.FeeTimelock
import FogoYield.Verification.Relayer.Governance
import FogoYield.Verification.Relayer.Lifecycle
import FogoYield.Verification.Relayer.Authentication
import FogoYield.Verification.Relayer.Receipt
import FogoYield.Verification.Relayer.Binding
import FogoYield.Verification.Relayer.Isolation
import FogoYield.Verification.Relayer.Solvency
import FogoYield.Verification.Relayer.Liveness
import FogoYield.Model.Relayer.ReferenceManager
import FogoYield.Solana.AddressBook
import FogoYield.Verification.Relayer.Reference
import FogoYield.Solana.Base58
import FogoYield.Model.Intent.Recipient
import FogoYield.Model.Sdk.Pda
import FogoYield.Verification.Sdk.Addresses
import FogoYield.Model.Sdk.Vaa
import FogoYield.Verification.Sdk.Vaa
import FogoYield.Model.Sdk.Ntt
import FogoYield.Verification.Sdk.Ntt
import FogoYield.Library.Parser
import FogoYield.Library.Utf8
import FogoYield.Model.Intent.Message
import FogoYield.Model.Sdk.Intent
import FogoYield.Library.Decimal
import FogoYield.Library.Lines
import FogoYield.Verification.Intent.Message
import FogoYield.Model.Intent.Reference
import FogoYield.Verification.Intent.Codec
import FogoYield.Verification.Intent.Reference
import FogoYield.Verification.Intent.Receivable
import FogoYield.Verification.Intent.Floors
import FogoYield.Model.Cranker.Enumerate
import FogoYield.Verification.Cranker.Watermarks
import FogoYield.Verification.Cranker.Enumerate
import FogoYield.Model.Cranker.Bridge
import FogoYield.Verification.Cranker.Bridge
import FogoYield.Verification.Relayer.Onboarding
import FogoYield.Model.Relayer.Inbox
import FogoYield.Verification.Relayer.Inbox
import FogoYield.Verification.Relayer.ReferenceInbox
import FogoYield.Model.Cranker.Swap
import FogoYield.Model.Sdk.Pricing
import FogoYield.Verification.Cranker.Fees
import FogoYield.Verification.Cranker.InboxItems
import FogoYield.Model.Sdk.VaaReads
import FogoYield.Verification.Sdk.VaaReads
import FogoYield.Library.FirstOccurrences
import FogoYield.Model.Sdk.Verifier
import FogoYield.Verification.Sdk.SignedMinOuts
import FogoYield.Verification.Sdk.Verifier
import FogoYield.Model.Cranker.Wormholescan
import FogoYield.Verification.Cranker.Harvest
import FogoYield.Model.Cranker.BoundedMap
import FogoYield.Model.Cranker.FlowState
import FogoYield.Verification.Cranker.FlowState
import FogoYield.Model.Cranker.Scan
import FogoYield.Verification.Cranker.Dispatch
import FogoYield.Model.Cranker.Recovery
import FogoYield.Verification.Sdk.WalletRecovery
import FogoYield.Verification.Cranker.Recovery
import FogoYield.Verification.Relayer.SwapAccounting
import FogoYield.Verification.Relayer.Finished
import FogoYield.Model.Cranker.Reads
import FogoYield.Verification.Cranker.Closed
import FogoYield.Model.Cranker.Concurrency
import FogoYield.Verification.Cranker.Concurrency
import FogoYield.Model.Cranker.WakeFlag
import FogoYield.Verification.Cranker.BoundedMap
import FogoYield.Verification.Cranker.WakeFlag
import FogoYield.Library.Rate
import FogoYield.Model.Sdk.MinOut
import FogoYield.Verification.Sdk.MinOut
import FogoYield.Model.Cranker.BridgePrefetch
import FogoYield.Verification.Cranker.BridgePrefetch
import FogoYield.Library.TokenBucket
import FogoYield.Model.Sdk.RateLimit
import FogoYield.Verification.Sdk.RateLimit
import FogoYield.Library.Utf16
import FogoYield.Library.Json
import FogoYield.Library.JsValue
import FogoYield.Library.JsonText
import FogoYield.Model.Cranker.Checkpoint
import FogoYield.Verification.Cranker.CheckpointLoad
import FogoYield.Verification.Cranker.CheckpointSave
import FogoYield.Library.FirstMax
import FogoYield.Verification.Sdk.OfferVectors
import FogoYield.Model.Intent.Send
import FogoYield.Model.Intent.Quote
import FogoYield.Library.Postings
import FogoYield.Library.Sequence
import FogoYield.Model.Intent.Bridge
import FogoYield.Model.Intent.Config
import FogoYield.Model.Intent.Program
import FogoYield.Model.Intent.ReferenceChain
import FogoYield.Verification.Intent.BridgeHandler
import FogoYield.Verification.Intent.Calls
import FogoYield.Verification.Intent.Custody
import FogoYield.Verification.Intent.Ledger
import FogoYield.Verification.Intent.Nonces
import FogoYield.Verification.Intent.Terms
import FogoYield.Library.Interleaving
import FogoYield.Model.Crossing.Chains
import FogoYield.Model.Crossing.Reference
import FogoYield.Verification.Crossing.Payouts
import FogoYield.Model.Cranker.Outbound
import FogoYield.Verification.Cranker.Outbound
