import FogoYield.Model.Sdk.Pda

/-! # NTT account lists and transfer arguments as the SDK builds them

`packages/sdk/src/builders/ntt.ts` and the parts of `packages/sdk/src/client.ts` that call it. -/

namespace FogoYield.Sdk

open FogoYield.Library FogoYield.Solana
open FogoYield.Relayer (RelayerRuntime Direction ascii)

/-! ## Account metas -/

def writable (pubkey : Pubkey) : AccountMeta := ⟨pubkey, false, true⟩
def readonly (pubkey : Pubkey) : AccountMeta := ⟨pubkey, false, false⟩
def signerWritable (pubkey : Pubkey) : AccountMeta := ⟨pubkey, true, true⟩

inductive NttBuildError where
  | recipientAddressLength
  | accountListDrift (label : String) (expected got : ℕ)
  deriving DecidableEq

/-- The tripwire for hand-ordered lists. -/
def assertAccountCount (accounts : List AccountMeta) (expected : ℕ) (label : String) :
    Except NttBuildError (List AccountMeta) :=
  if accounts.length ≠ expected then .error (.accountListDrift label expected accounts.length)
  else .ok accounts

/-! ## Addresses -/

/-- `SYSVAR_CLOCK_PUBKEY` and `SYSVAR_RENT_PUBKEY`. -/
def sysvarClock : Pubkey := Pubkey.literal "SysvarC1ock11111111111111111111111111111111"
def sysvarRent : Pubkey := Pubkey.literal "SysvarRent111111111111111111111111111111111"

def chainIdBeBuf (chainId : ℕ) : Bytes := beBytes 2 chainId

def findNttConfigPda (rt : RelayerRuntime) (programId : Pubkey) : Pubkey :=
  (rt.findProgramAddress [ascii "config"] programId).1

def findNttPeerPda (rt : RelayerRuntime) (chainId : ℕ) (programId : Pubkey) : Pubkey :=
  (rt.findProgramAddress [ascii "peer", chainIdBeBuf chainId] programId).1

def findRegisteredTransceiverPda (rt : RelayerRuntime) (transceiver programId : Pubkey) : Pubkey :=
  (rt.findProgramAddress [ascii "registered_transceiver", transceiver.bytes] programId).1

def findInboxRateLimitPda (rt : RelayerRuntime) (chainId : ℕ) (programId : Pubkey) : Pubkey :=
  (rt.findProgramAddress [ascii "inbox_rate_limit", chainIdBeBuf chainId] programId).1

def findOutboxRateLimitPda (rt : RelayerRuntime) (programId : Pubkey) : Pubkey :=
  (rt.findProgramAddress [ascii "outbox_rate_limit"] programId).1

def findTokenAuthorityPda (rt : RelayerRuntime) (programId : Pubkey) : Pubkey :=
  (rt.findProgramAddress [ascii "token_authority"] programId).1

/-- `getAssociatedTokenAddressSync` with its default token program. -/
def associatedTokenAddress (rt : RelayerRuntime) (mint owner : Pubkey) : Pubkey :=
  rt.ata owner mint tokenProgram

def findNttCustodyAta (rt : RelayerRuntime) (mint programId : Pubkey) : Pubkey :=
  associatedTokenAddress rt mint (findTokenAuthorityPda rt programId)

def findSessionAuthorityPda (rt : RelayerRuntime) (fromOwner : Pubkey) (argsHash : Bytes)
    (programId : Pubkey) : Pubkey × UInt8 :=
  rt.findProgramAddress [ascii "session_authority", fromOwner.bytes, argsHash] programId

def findNttEmitterPda (rt : RelayerRuntime) (transceiverProgramId : Pubkey) : Pubkey :=
  (rt.findProgramAddress [ascii "emitter"] transceiverProgramId).1

def findNttWormholeMessagePda (rt : RelayerRuntime) (outboxItem transceiverProgramId : Pubkey) :
    Pubkey :=
  (rt.findProgramAddress [ascii "message", outboxItem.bytes] transceiverProgramId).1

/-! ## Transfer arguments -/

structure NttTransferArgs where
  amount : ℤ
  recipientChain : ℕ
  recipientAddress : Bytes
  shouldQueue : Bool

/-- The 43-byte layout: `amount ‖ chain ‖ recipient ‖ should_queue`. -/
def serializeTransferArgs (args : NttTransferArgs) (littleEndian : Bool) :
    Except NttBuildError Bytes :=
  if args.recipientAddress.length ≠ 32 then .error .recipientAddressLength
  else .ok (setBigUint64 args.amount littleEndian ++ setUint16 args.recipientChain littleEndian ++
    args.recipientAddress ++ [if args.shouldQueue then 1 else 0])

def nttTransferArgsHash (rt : RelayerRuntime) (args : NttTransferArgs) :
    Except NttBuildError Bytes := do
  let packed ← serializeTransferArgs args false
  return rt.keccak packed

def encodeNttTransferArgsBorsh (args : NttTransferArgs) : Except NttBuildError Bytes :=
  serializeTransferArgs args true

/-! ## `transfer_lock` -/

structure TransferLockParams where
  nttProgramId : Pubkey
  fromOwner : Pubkey
  fromOwnerIsSigner : Bool
  fromTokenAccount : Pubkey
  mint : Pubkey
  outboxItem : Pubkey
  recipientChain : ℕ
  recipientAddress : Bytes
  amount : ℤ
  shouldQueue : Option Bool

def nttTransferLockAccountCount : ℕ := 14

/-- The session authority of a transfer: the PDA of its owner and of the hash of its arguments. -/
def TransferLockParams.sessionAuthority (rt : RelayerRuntime) (params : TransferLockParams) :
    Except NttBuildError Pubkey := do
  let argsHash ← nttTransferArgsHash rt
    { amount := params.amount
      recipientChain := params.recipientChain
      recipientAddress := params.recipientAddress
      shouldQueue := params.shouldQueue.getD false }
  return (findSessionAuthorityPda rt params.fromOwner argsHash params.nttProgramId).1

def TransferLockParams.accounts (rt : RelayerRuntime) (params : TransferLockParams)
    (sessionAuthorityPda : Pubkey) : List AccountMeta :=
  [ ⟨params.fromOwner, params.fromOwnerIsSigner, true⟩,
    readonly (findNttConfigPda rt params.nttProgramId),
    writable params.mint,
    writable params.fromTokenAccount,
    readonly tokenProgram,
    ⟨params.outboxItem, true, true⟩,
    writable (findOutboxRateLimitPda rt params.nttProgramId),
    writable (findNttCustodyAta rt params.mint params.nttProgramId),
    readonly systemProgram,
    writable (findInboxRateLimitPda rt params.recipientChain params.nttProgramId),
    readonly (findNttPeerPda rt params.recipientChain params.nttProgramId),
    readonly sessionAuthorityPda,
    readonly (findTokenAuthorityPda rt params.nttProgramId),
    readonly params.nttProgramId ]

def buildNttTransferLockAccountList (rt : RelayerRuntime) (params : TransferLockParams) :
    Except NttBuildError (List AccountMeta) := do
  let sessionAuthorityPda ← params.sessionAuthority rt
  assertAccountCount (params.accounts rt sessionAuthorityPda) nttTransferLockAccountCount
    "NTT transfer_lock"

/-! ## `release_wormhole_outbound` -/

structure ReleaseOutboundParams where
  payer : Pubkey
  nttProgramId : Pubkey
  transceiverProgramId : Option Pubkey
  outboxItem : Pubkey
  wormholeMessage : Option Pubkey
  emitter : Option Pubkey
  wormholeProgram : Pubkey
  wormholeBridge : Pubkey
  wormholeFeeCollector : Pubkey
  wormholeSequence : Pubkey
  outboxItemSigner : Pubkey

def nttReleaseWormholeOutboundAccountCount : ℕ := 15

def ReleaseOutboundParams.accounts (rt : RelayerRuntime) (params : ReleaseOutboundParams) :
    List AccountMeta :=
  let transceiverProgramId := params.transceiverProgramId.getD params.nttProgramId
  [ signerWritable params.payer,
    readonly (findNttConfigPda rt params.nttProgramId),
    writable params.outboxItem,
    readonly (findRegisteredTransceiverPda rt transceiverProgramId params.nttProgramId),
    writable (params.wormholeMessage.getD
      (findNttWormholeMessagePda rt params.outboxItem transceiverProgramId)),
    readonly (params.emitter.getD (findNttEmitterPda rt transceiverProgramId)),
    writable params.wormholeBridge,
    writable params.wormholeFeeCollector,
    writable params.wormholeSequence,
    readonly params.wormholeProgram,
    readonly systemProgram,
    readonly sysvarClock,
    readonly sysvarRent,
    readonly params.nttProgramId,
    readonly params.outboxItemSigner ]

def buildNttReleaseWormholeOutboundAccountList (rt : RelayerRuntime)
    (params : ReleaseOutboundParams) : Except NttBuildError (List AccountMeta) :=
  assertAccountCount (params.accounts rt) nttReleaseWormholeOutboundAccountCount
    "NTT release_wormhole_outbound"

/-! ## `redeem` and `release_inbound` -/

structure RedeemReleaseParams where
  mint : Pubkey
  nttInboxItem : Pubkey
  nttTransceiverMessage : Pubkey
  transceiverAddress : Pubkey
  programId : Pubkey
  authority : Pubkey
  recipientAta : Pubkey

def nttRedeemAccountCount : ℕ := 10
def nttReleaseInboundAccountCount : ℕ := 8

/-- The source chain is FOGO, the only one the relayer supports. -/
def RedeemReleaseParams.redeem (rt : RelayerRuntime) (params : RedeemReleaseParams) :
    List AccountMeta :=
  [ writable params.authority,
    readonly (findNttConfigPda rt params.programId),
    readonly (findNttPeerPda rt fogoWormholeChainId params.programId),
    readonly params.nttTransceiverMessage,
    readonly (findRegisteredTransceiverPda rt params.transceiverAddress params.programId),
    readonly params.mint,
    writable params.nttInboxItem,
    writable (findInboxRateLimitPda rt fogoWormholeChainId params.programId),
    writable (findOutboxRateLimitPda rt params.programId),
    readonly systemProgram ]

def RedeemReleaseParams.release (rt : RelayerRuntime) (params : RedeemReleaseParams) :
    List AccountMeta :=
  [ writable params.authority,
    readonly (findNttConfigPda rt params.programId),
    writable params.nttInboxItem,
    writable params.recipientAta,
    readonly (findTokenAuthorityPda rt params.programId),
    writable params.mint,
    readonly tokenProgram,
    writable (findNttCustodyAta rt params.mint params.programId) ]

/-- `redeem ‖ NTT ‖ release ‖ NTT`, with the length of the first part. -/
def buildNttRedeemReleaseAccounts (rt : RelayerRuntime) (params : RedeemReleaseParams) :
    Except NttBuildError (List AccountMeta × ℕ) := do
  let redeem ← assertAccountCount (params.redeem rt) nttRedeemAccountCount "NTT redeem"
  let release ← assertAccountCount (params.release rt) nttReleaseInboundAccountCount
    "NTT release (inbound)"
  let nttProgramMeta := readonly params.programId
  return (redeem ++ [nttProgramMeta] ++ release ++ [nttProgramMeta], redeem.length + 1)

/-! ## Remaining accounts of `send` and `refund` -/

/-- `transferLockAccounts` of the client: the relayer authority transfers from its own associated
token account to FOGO. -/
def clientTransferLock (rt : RelayerRuntime) (authorityPda mint nttProgramId outboxItem : Pubkey)
    (recipientAddress : Bytes) (amount : ℤ) : TransferLockParams where
  nttProgramId := nttProgramId
  fromOwner := authorityPda
  fromOwnerIsSigner := false
  fromTokenAccount := associatedTokenAddress rt mint authorityPda
  mint := mint
  outboxItem := outboxItem
  recipientChain := fogoWormholeChainId
  recipientAddress := recipientAddress
  amount := amount
  shouldQueue := none

end FogoYield.Sdk
