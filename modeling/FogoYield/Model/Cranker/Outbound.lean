import FogoYield.Model.Relayer.Program
import FogoYield.Model.Sdk.Client
import FogoYield.Model.Sdk.Vaa

/-! # The drivers of `send` and `refund`

`packages/cranker/src/relayer/{send,refund,top-up}.ts`, up to the transaction they submit. Both ask
the chain and Wormholescan, give up on what they find, and build one instruction. -/

namespace FogoYield.Cranker

open FogoYield.Library FogoYield.Solana FogoYield.Sdk
open FogoYield.Relayer (RelayerRuntime RelayerWorld RelayerResult Direction PairConfig Flow)

/-! ## What a driver is given -/

/-- `AdvanceContext`: the keypair and the lookup table of the send leg. -/
structure AdvanceContext where
  keypair : Pubkey
  sendLookupTable : Option Pubkey

/-- What the calls of a driver come back with, `none` where one throws. -/
structure OutboundReads where
  config : Option PairConfig
  vaaBytes : Option Bytes
  /-- The flow at an address, `none` also where `fetchFlowFor` catches an error. -/
  flow : Pubkey → Option Flow
  slot : Option UInt64
  /-- The lamports of an account, `none` also where the read is caught. -/
  lamports : Pubkey → Option ℕ
  release : (mint manager outboxItem : Pubkey) → Option ReleaseAccounts
  /-- Whether there is a lookup table at the address. -/
  lookupTable : Pubkey → Option Bool

/-! ## What a driver comes to -/

inductive OutboundNoop where
  | assetManagerNotDeployed
  | noFlow (nttInboxItem : Pubkey)
  | flowStatus (found expected : Relayer.FlowStatus)
  | timeoutNotReached (receivedSlot currentSlot : UInt64)
  | peerNotRegistered (fogoPeerPda : Pubkey)
  | transceiverNotRegistered (registeredTransceiverPda : Pubkey)
  | lookupTableNotConfigured
  deriving DecidableEq

/-- A driver that submits nothing. `config` marks what an operator has to set up. -/
inductive OutboundStop where
  | noop (config : Bool) (reason : OutboundNoop)
  | error
  deriving DecidableEq

/-- The transfers in front and the instruction of the relayer. The instruction that sets the
priority fee changes no account and is left out. -/
structure OutboundTx where
  fundIxs : List Instruction
  ix : OutboundIx
  signers : List Pubkey

/-- The transfers are executed, one after the other. -/
def OutboundTx.fund (rt : RelayerRuntime) (tx : OutboundTx) (w : RelayerWorld) :
    RelayerResult RelayerWorld :=
  execute (Relayer.Action.apply rt) (tx.fundIxs.map .external) w

/-- The program executes the `send` of a transaction. -/
def OutboundTx.send (rt : RelayerRuntime) (tx : OutboundTx) (w : RelayerWorld) :
    RelayerResult RelayerWorld :=
  Relayer.send rt ⟨tx.signers, tx.ix.remaining⟩ tx.ix.accounts
    (UInt8.ofNat tx.ix.transferLockAccountCount) w

/-- The program executes the `refund` of a transaction. -/
def OutboundTx.refund (rt : RelayerRuntime) (tx : OutboundTx) (w : RelayerWorld) :
    RelayerResult RelayerWorld :=
  Relayer.refund rt ⟨tx.signers, tx.ix.remaining⟩ tx.ix.accounts
    (UInt8.ofNat tx.ix.transferLockAccountCount) w

/-- A transaction goes through as a whole or not at all. -/
def OutboundTx.submitSend (rt : RelayerRuntime) (tx : OutboundTx) (w : RelayerWorld) :
    RelayerResult RelayerWorld := do
  let funded ← tx.fund rt w
  tx.send rt funded

def OutboundTx.submitRefund (rt : RelayerRuntime) (tx : OutboundTx) (w : RelayerWorld) :
    RelayerResult RelayerWorld := do
  let funded ← tx.fund rt w
  tx.refund rt funded

def orError {α : Type} : Option α → Except OutboundStop α
  | some x => .ok x
  | none => .error .error

def noopUnless (c : Prop) [Decidable c] (config : Bool) (reason : OutboundNoop) :
    Except OutboundStop Unit :=
  if c then .ok () else .error (.noop config reason)

/-! ## Top-ups -/

def relayerAuthTopUp : ℕ := 3000000
def sessionAuthTopUp : ℕ := 2000000

/-- Lamports needed to bring `existing` up to `target`. -/
def computeTopUp (existing : Option ℕ) (target : ℕ) : ℕ :=
  let e := existing.getD 0
  if target ≤ e then 0 else target - e

/-- `SystemProgram.transfer`, instruction 2 of the system program. -/
def systemTransferIx (fromPubkey toPubkey : Pubkey) (lamports : ℕ) : Instruction where
  programId := systemProgram
  accounts := [⟨fromPubkey, true, true⟩, ⟨toPubkey, false, true⟩]
  data := leBytes 4 2 ++ leBytes 8 lamports

def buildTopUpIxs (lamports : Pubkey → Option ℕ)
    (payer relayerAuthorityPda sessionAuthorityPda : Pubkey) : List Instruction :=
  let relayerTopUp := computeTopUp (lamports relayerAuthorityPda) relayerAuthTopUp
  let sessionTopUp := computeTopUp (lamports sessionAuthorityPda) sessionAuthTopUp
  (if 0 < relayerTopUp then [systemTransferIx payer relayerAuthorityPda relayerTopUp] else []) ++
    if 0 < sessionTopUp then [systemTransferIx payer sessionAuthorityPda sessionTopUp] else []

/-! ## The drivers -/

/-- A `received` flow is refundable once this many slots pass. -/
def refundDue (receivedSlot currentSlot : UInt64) : Bool :=
  decide (receivedSlot.toNat + refundTimeoutSlots ≤ currentSlot.toNat)

section

variable (rt : RelayerRuntime) (client : RelayerClient) (ctx : AdvanceContext)
variable (reads : OutboundReads) (direction : Direction) (outboxItem : Pubkey)

/-- The flow of the VAA, with the inbox item the inbound manager keeps for it. -/
def fetchFlowOf (inboundManager : Pubkey) (expected : Relayer.FlowStatus) :
    Except OutboundStop (Pubkey × Flow) := do
  let vaaBytes ← orError reads.vaaBytes
  let resolved ← orError (resolveNttVaa rt vaaBytes inboundManager none).toOption
  let nttInboxItem := resolved.nttInboxItem
  match reads.flow (client.flowPda rt direction nttInboxItem) with
  | none => .error (.noop false (.noFlow nttInboxItem))
  | some flow =>
    noopUnless (flow.status = expected) false (.flowStatus flow.status expected)
    return (nttInboxItem, flow)

/-- The part the drivers share: NTT must be set up for FOGO on the manager, and `build` is called
with the fields of the flow. -/
def submitOutbound (config : Bool) (manager mint : Pubkey) (cfg : PairConfig)
    (nttInboxItem : Pubkey) (flow : Flow)
    (build : OutboundParams → Except NttBuildError OutboundIx) :
    Except OutboundStop OutboundTx := do
  let fogoPeerPda := findNttPeerPda rt fogoWormholeChainId manager
  noopUnless (reads.lamports fogoPeerPda ≠ none) config (.peerNotRegistered fogoPeerPda)
  let transceiverPda := findRegisteredTransceiverPda rt manager manager
  noopUnless (reads.lamports transceiverPda ≠ none) config
    (.transceiverNotRegistered transceiverPda)
  let argsHash ← orError (nttTransferArgsHash rt
    ⟨flow.amount.toNat, fogoWormholeChainId, flow.recipient.bytes, false⟩).toOption
  let relayerAuthorityPda := RelayerClient.authorityPda rt
  let sessionAuthorityPda := (findSessionAuthorityPda rt relayerAuthorityPda argsHash manager).1
  let fundIxs := buildTopUpIxs reads.lamports ctx.keypair relayerAuthorityPda sessionAuthorityPda
  let release ← orError (reads.release mint manager outboxItem)
  let ix ← orError (build
    { payer := ctx.keypair
      direction := direction
      baseMint := cfg.baseMint
      assetMint := cfg.assetMint
      nttBaseProgram := some cfg.nttBaseProgram
      nttAssetProgram := some cfg.nttAssetProgram
      nttInboxItem := nttInboxItem
      rentDestination := flow.payer
      flowAmount := flow.amount.toNat
      flowRecipient := flow.recipient.bytes
      outboxItem := outboxItem
      release := release }).toOption
  match ctx.sendLookupTable with
  | none => .error (.noop true .lookupTableNotConfigured)
  | some key =>
    let found ← orError (reads.lookupTable key)
    if found then .ok ⟨fundIxs, ix, [ctx.keypair, outboxItem]⟩ else .error .error

/-- `send`: of a swapped flow, through the manager of the leg's output. -/
def driveSend : Except OutboundStop OutboundTx := do
  let cfg ← orError reads.config
  let isDeposit := decide (direction = .deposit)
  let inboundManager := if isDeposit then cfg.nttBaseProgram else cfg.nttAssetProgram
  let outboundManager := if isDeposit then cfg.nttAssetProgram else cfg.nttBaseProgram
  let outboundMint := if isDeposit then cfg.assetMint else cfg.baseMint
  noopUnless (¬ (isDeposit = true ∧ cfg.nttAssetProgram = cfg.nttBaseProgram)) true
    .assetManagerNotDeployed
  let (nttInboxItem, flow) ← fetchFlowOf rt client reads direction inboundManager .swapped
  submitOutbound rt ctx reads direction outboxItem isDeposit outboundManager outboundMint cfg
    nttInboxItem flow (client.send rt)

/-- `refund`: of a received flow past the timeout, through the manager it came in by. -/
def driveRefund : Except OutboundStop OutboundTx := do
  let cfg ← orError reads.config
  let isDeposit := decide (direction = .deposit)
  let originalManager := if isDeposit then cfg.nttBaseProgram else cfg.nttAssetProgram
  let originalMint := if isDeposit then cfg.baseMint else cfg.assetMint
  let (nttInboxItem, flow) ← fetchFlowOf rt client reads direction originalManager .received
  let currentSlot ← orError reads.slot
  noopUnless (refundDue flow.receivedSlot currentSlot = true) false
    (.timeoutNotReached flow.receivedSlot currentSlot)
  noopUnless (cfg.nttAssetProgram ≠ cfg.nttBaseProgram) true .assetManagerNotDeployed
  submitOutbound rt ctx reads direction outboxItem true originalManager originalMint cfg
    nttInboxItem flow (client.refund rt)

end

end FogoYield.Cranker
