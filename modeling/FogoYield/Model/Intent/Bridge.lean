import FogoYield.Model.Intent.Quote
import FogoYield.Model.Intent.Send

/-! # Bridging through NTT

`programs/intent-transfer/src/bridge`: the calls of `cpi` and the handler of `bridge_ntt_tokens`. -/

namespace FogoYield.Intent

open FogoYield.Library FogoYield.Solana

/-! ## Calls of the NTT manager -/

def transferBurnDiscriminator : Bytes := [75, 144, 26, 232, 39, 12, 75, 222]
def releaseWormholeOutboundDiscriminator : Bytes := [202, 87, 51, 173, 142, 160, 188, 204]
def relayNttMessageDiscriminator : Bytes := [192, 85, 112, 237, 55, 33, 49, 150]

def nttWithExecutorProgramId : Pubkey :=
  Pubkey.literal "nex1gkSWtRBheEJuQZMqHhbMG5A45qPU76KqnCZNVHR"

def executorProgramId : Pubkey := Pubkey.literal "execXUrAsMnqMmTHj5m7N1YQgsDz3cwGLYCYyuDRciV"

structure TransferArgs where
  amount : UInt64
  recipientChain : UInt16
  recipientAddress : Bytes
  shouldQueue : Bool
  deriving DecidableEq

def boolByte (b : Bool) : UInt8 := if b then 1 else 0

/-- The Borsh encoding. -/
def TransferArgs.serialize (a : TransferArgs) : Bytes :=
  leBytes 8 a.amount.toNat ++ leBytes 2 a.recipientChain.toNat ++ a.recipientAddress ++
    [boolByte a.shouldQueue]

def RelayNttMessageArgs.serialize (a : RelayNttMessageArgs) : Bytes :=
  leBytes 2 a.recipientChain.toNat ++ leBytes 8 a.execAmount.toNat ++
    leBytes 4 a.signedQuoteBytes.length ++ a.signedQuoteBytes ++
    leBytes 4 a.relayInstructions.length ++ a.relayInstructions

/-- The accounts of `Ntt`, in their order. -/
structure NttAccounts where
  clock : Pubkey
  rent : Pubkey
  nttManager : Pubkey
  nttConfig : Pubkey
  nttInboxRateLimit : Pubkey
  nttSessionAuthority : Pubkey
  nttTokenAuthority : Pubkey
  wormholeMessage : Pubkey
  transceiver : Pubkey
  emitter : Pubkey
  wormholeBridge : Pubkey
  wormholeFeeCollector : Pubkey
  wormholeSequence : Pubkey
  wormholeProgram : Pubkey
  nttWithExecutorProgram : Pubkey
  executorProgram : Pubkey
  nttPeer : Pubkey
  nttOutboxItem : Pubkey
  nttOutboxRateLimit : Pubkey
  nttCustody : Pubkey
  payeeNttWithExecutor : Pubkey

structure BridgeNttTokensAccounts extends FeeAccounts where
  fromChainId : Pubkey
  sysvarInstructions : Pubkey
  intentTransferSetter : Pubkey
  source : Pubkey
  intermediateTokenAccount : Pubkey
  mint : Pubkey
  metadata : Option Pubkey
  expectedNttConfig : Pubkey
  nonce : Pubkey
  sponsor : Pubkey
  systemProgram : Pubkey
  tokenProgram : Pubkey
  associatedTokenProgram : Pubkey
  ntt : NttAccounts

structure BridgeNttTokensArgs where
  signedQuoteBytes : Bytes
  payDestinationAtaRent : Bool

def signer (k : Pubkey) : AccountMeta := ⟨k, true, true⟩
def writable (k : Pubkey) : AccountMeta := ⟨k, false, true⟩
def readonly (k : Pubkey) : AccountMeta := ⟨k, false, false⟩

def transferBurnIx (accs : BridgeNttTokensAccounts) (args : TransferArgs) : Instruction where
  programId := accs.ntt.nttManager
  accounts := [signer accs.sponsor, readonly accs.ntt.nttConfig, writable accs.mint,
    writable accs.intermediateTokenAccount, readonly accs.tokenProgram,
    signer accs.ntt.nttOutboxItem, writable accs.ntt.nttOutboxRateLimit,
    writable accs.ntt.nttCustody, readonly accs.systemProgram,
    writable accs.ntt.nttInboxRateLimit, readonly accs.ntt.nttPeer,
    readonly accs.ntt.nttSessionAuthority, readonly accs.ntt.nttTokenAuthority]
  data := transferBurnDiscriminator ++ args.serialize

def releaseWormholeOutboundIx (accs : BridgeNttTokensAccounts) (revertOnDelay : Bool) :
    Instruction where
  programId := accs.ntt.nttManager
  accounts := [signer accs.sponsor, readonly accs.ntt.nttConfig,
    writable accs.ntt.nttOutboxItem, readonly accs.ntt.transceiver,
    writable accs.ntt.wormholeMessage, readonly accs.ntt.emitter,
    writable accs.ntt.wormholeBridge, writable accs.ntt.wormholeFeeCollector,
    writable accs.ntt.wormholeSequence, readonly accs.ntt.wormholeProgram,
    readonly accs.systemProgram, readonly accs.ntt.clock, readonly accs.ntt.rent]
  data := releaseWormholeOutboundDiscriminator ++ [boolByte revertOnDelay]

def relayNttMessageIx (accs : BridgeNttTokensAccounts) (args : RelayNttMessageArgs) :
    Instruction where
  programId := nttWithExecutorProgramId
  accounts := [signer accs.sponsor, writable accs.ntt.payeeNttWithExecutor,
    readonly accs.ntt.nttManager, readonly accs.ntt.nttPeer,
    readonly accs.ntt.nttOutboxItem, readonly accs.ntt.executorProgram,
    readonly accs.systemProgram]
  data := relayNttMessageDiscriminator ++ args.serialize

/-! ## The token accounts of the setter -/

/-- `close_account` of the token program. -/
def closeAccountIx (tp account destination authority : Pubkey) : Instruction where
  programId := tp
  accounts := [⟨account, false, true⟩, ⟨destination, false, true⟩, ⟨authority, true, false⟩]
  data := [9]

/-- The intermediate account of a source: `[BRIDGE_NTT_INTERMEDIATE_SEED, source]`. -/
def intermediateSeeds (source : Pubkey) : List Bytes := [bridgeNttIntermediateSeed, source.bytes]

/-- `init_if_needed` of the intermediate account, held by the setter. -/
def loadIntermediate (rt : IntentRuntime) (accs : BridgeNttTokensAccounts) (w : IntentWorld) :
    IntentResult IntentWorld := do
  let _ ← findSeeds rt programId (intermediateSeeds accs.source) accs.intermediateTokenAccount
  let w ← initIfNeeded rt accs.sponsor accs.intermediateTokenAccount Solana.tokenProgram
    tokenAccountLen (.token ⟨accs.mint, accs.intentTransferSetter, 0, none, 0, none⟩) w
  let t ← checkTokenMint w accs.mint Solana.tokenProgram accs.intermediateTokenAccount
  constrain (t.owner = accs.intentTransferSetter) .constraintTokenOwner
  return w

/-! ## The handler -/

/-- Address derivation as the other chain's programs see it; it is the same on both. -/
def addresses (rt : IntentRuntime) : FogoYield.Relayer.RelayerRuntime where
  findProgramAddress := rt.findProgramAddress
  createProgramAddress := rt.createProgramAddress
  keccak := rt.keccak
  minimumBalance := rt.minimumBalance
  invoke _ _ _ := none

variable (K : Crates) (rt : IntentRuntime)

/-- What the `Accounts` struct leaves the handler of `bridge_ntt_tokens` with. -/
structure BridgeNttTokensLoaded where
  fromChainId : String
  source : TokenAccount
  mint : Mint
  manager : Pubkey
  nonce : UInt64
  fee : FeeLoaded
  setterBump : UInt8
  world : IntentWorld

def BridgeNttTokensAccounts.load (ctx : Context) (accs : BridgeNttTokensAccounts)
    (w : IntentWorld) : IntentResult BridgeNttTokensLoaded := do
  let fromChainId ← loadChainId K rt w accs.fromChainId
  constrain (accs.sysvarInstructions = instructionsSysvar) .constraintAddress
  let mint ← loadSplMint w accs.mint
  loadSigner ctx accs.sponsor
  loadSigner ctx accs.ntt.nttOutboxItem
  checkProgram accs.systemProgram Solana.systemProgram
  checkProgram accs.tokenProgram Solana.tokenProgram
  checkProgram accs.associatedTokenProgram Solana.associatedTokenProgram
  let setterBump ← findSeeds rt programId [intentTransferSeed] accs.intentTransferSetter
  let source ← checkTokenMint w accs.mint Solana.tokenProgram accs.source
  let manager ← loadAccount programId IntentData.asExpectedNttConfig w accs.expectedNttConfig
  let _ ← findSeeds rt programId [expectedNttConfigSeed, accs.mint.bytes] accs.expectedNttConfig
  let fee ← accs.toFeeAccounts.load rt ctx source.owner w
  constrain (accs.ntt.nttWithExecutorProgram = nttWithExecutorProgramId) .constraintAddress
  constrain (accs.ntt.executorProgram = executorProgramId) .constraintAddress
  let w ← loadIntermediate rt accs w
  let (nonce, w) ← loadNonce rt accs.sponsor bridgeNttNonceSeed source.owner accs.nonce w
  return ⟨fromChainId, source, mint, manager, nonce, fee, setterBump, w⟩

/-- The three calls that take the tokens over the bridge: burn them, publish the message, pay for
its relay. -/
def burnAndRelay (ctx : Context) (accs : BridgeNttTokensAccounts) (args : BridgeNttTokensArgs)
    (toChainId : WormholeChainId) (transferArgs : TransferArgs) (w : IntentWorld) :
    IntentResult IntentWorld := do
  let w ← invokeSigned rt programId ctx [] (transferBurnIx accs transferArgs) w
  let w ← invokeSigned rt programId ctx [] (releaseWormholeOutboundIx accs true) w
  let relayNttArgs ←
    computeRelayNttArgs toChainId args.signedQuoteBytes args.payDestinationAtaRent
  invokeSigned rt programId ctx [] (relayNttMessageIx accs relayNttArgs) w

/-- `process_ntt_bridge`. -/
def processNttBridge (ctx : Context) (accs : BridgeNttTokensAccounts) (args : BridgeNttTokensArgs)
    (loaded : BridgeNttTokensLoaded) (nttMessage : NttMessage) (signer : Pubkey) :
    IntentResult IntentWorld := do
  require (loaded.fromChainId = nttMessage.fromChainId) .chainIdMismatch
  verifySymbolOrMint K rt nttMessage.symbolOrMint accs.metadata accs.mint loaded.world
  verifySignerMatchesSource signer loaded.source.owner
  let nonce ← verifyAndUpdateNonce loaded.nonce nttMessage.nonce
  require (accs.ntt.nttManager = loaded.manager) .invalidNttManager
  let amount ← uiAmount K nttMessage.amount loaded.mint.decimals
  let w ← inSessionTransferChecked rt ctx accs.source accs.mint accs.intermediateTokenAccount
    accs.signerOrSession accs.programSigner loaded.fee.signerBump amount loaded.mint.decimals
    loaded.world
  let toChainId ← liftOption (convertChainIdToWormhole nttMessage.toChainId) .unsupportedToChainId
  let recipientAddress ← liftOption
    (resolveRecipient (addresses rt) nttMessage.recipient signer) .invalidRecipientAddress
  let transferArgs : TransferArgs :=
    { amount := amount
      recipientChain := toChainId.toU16
      recipientAddress := recipientAddress
      shouldQueue := false }
  let setterSeeds := [intentTransferSeed, [loaded.setterBump]]
  let w ← invokeSigned rt programId ctx setterSeeds
    (approveIx Solana.tokenProgram accs.intermediateTokenAccount accs.ntt.nttSessionAuthority
      accs.intentTransferSetter amount) w
  let w ← burnAndRelay rt ctx accs args toChainId transferArgs w
  let w ← invokeSigned rt programId ctx setterSeeds
    (closeAccountIx Solana.tokenProgram accs.intermediateTokenAccount accs.sponsor
      accs.intentTransferSetter) w
  let w ← verifyAndCollectFee K rt ctx accs.toFeeAccounts loaded.fee
    loaded.fee.config.bridgeTransferFee nttMessage.feeAmount nttMessage.feeSymbolOrMint w
  return writeAccount accs.nonce (.nonce nonce) w

/-- `verify_and_initiate_bridge`. -/
def bridgeNttTokens (ctx : IntentContext) (accs : BridgeNttTokensAccounts)
    (args : BridgeNttTokensArgs) (w : IntentWorld) : IntentResult IntentWorld := do
  let loaded ← accs.load K rt ctx.toContext w
  let (message, signer) ← loadIntent (bridgeMessageTryFrom K.intents) ctx
  match message with
  | .ntt nttMessage => processNttBridge K rt ctx.toContext accs args loaded nttMessage signer

end FogoYield.Intent
