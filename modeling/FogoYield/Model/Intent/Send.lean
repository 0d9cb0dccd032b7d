import FogoYield.Model.Intent.TransferMessage
import FogoYield.Model.Intent.Verify

/-! # Transfers within the chain

`programs/intent-transfer/src/intrachain/processor`: `send_tokens` and `send_native`, which count
on one nonce for each signer. -/

namespace FogoYield.Intent

open FogoYield.Library FogoYield.Solana

variable (K : Crates) (rt : IntentRuntime)

/-- `Intent::<M>::load`: the signed message, parsed. -/
def loadIntent {M : Type} (tryFrom : Bytes → Option M) (ctx : IntentContext) :
    IntentResult (M × Pubkey) :=
  match ctx.intent with
  | .error e => .error (.custom e)
  | .ok signed => do
    let message ← liftOption (tryFrom signed.message) .parseFailedError
    return (message, signed.signer)

/-! ## Tokens -/

structure SendTokensAccounts extends FeeAccounts where
  chainId : Pubkey
  sysvarInstructions : Pubkey
  intentTransferSetter : Pubkey
  source : Pubkey
  destination : Pubkey
  mint : Pubkey
  metadata : Option Pubkey
  nonce : Pubkey
  sponsor : Pubkey
  destinationOwner : Pubkey
  systemProgram : Pubkey
  tokenProgram : Pubkey
  associatedTokenProgram : Pubkey

/-- What the `Accounts` struct leaves the handler of `send_tokens` with. -/
structure SendTokensLoaded where
  chainId : String
  source : TokenAccount
  mint : Mint
  nonce : UInt64
  fee : FeeLoaded
  world : IntentWorld

def SendTokensAccounts.load (ctx : Context) (accs : SendTokensAccounts) (w : IntentWorld) :
    IntentResult SendTokensLoaded := do
  let chainId ← loadChainId K rt w accs.chainId
  constrain (accs.sysvarInstructions = instructionsSysvar) .constraintAddress
  let mint ← loadSplMint w accs.mint
  loadSigner ctx accs.sponsor
  checkProgram accs.systemProgram Solana.systemProgram
  checkProgram accs.tokenProgram Solana.tokenProgram
  checkProgram accs.associatedTokenProgram Solana.associatedTokenProgram
  let _ ← findSeeds rt programId [intentTransferSeed] accs.intentTransferSetter
  let source ← checkTokenMint w accs.mint Solana.tokenProgram accs.source
  let fee ← accs.toFeeAccounts.load rt ctx source.owner w
  let w ← initAssociatedTokenIfNeeded rt accs.sponsor accs.mint accs.destinationOwner
    accs.destination w
  let _ ← checkAssociatedToken rt w accs.mint accs.destinationOwner Solana.tokenProgram
    accs.destination
  let (nonce, w) ← loadNonce rt accs.sponsor intentTransferNonceSeed source.owner accs.nonce w
  return ⟨chainId, source, mint, nonce, fee, w⟩

def sendTokens (ctx : IntentContext) (accs : SendTokensAccounts) (w : IntentWorld) :
    IntentResult IntentWorld := do
  let loaded ← accs.load K rt ctx.toContext w
  let (message, signer) ← loadIntent (messageTryFrom K.intents) ctx
  require (loaded.chainId = message.chainId) .chainIdMismatch
  verifySymbolOrMint K rt message.symbolOrMint accs.metadata accs.mint loaded.world
  verifySignerMatchesSource signer loaded.source.owner
  require (message.recipient = accs.destinationOwner) .recipientMismatch
  let nonce ← verifyAndUpdateNonce loaded.nonce message.nonce
  let amount ← uiAmount K message.amount loaded.mint.decimals
  let w ← inSessionTransferChecked rt ctx.toContext accs.source accs.mint accs.destination
    accs.signerOrSession accs.programSigner loaded.fee.signerBump amount loaded.mint.decimals
    loaded.world
  let w ← verifyAndCollectFee K rt ctx.toContext accs.toFeeAccounts loaded.fee
    loaded.fee.config.intrachainTransferFee message.feeAmount message.feeSymbolOrMint w
  -- the account is written back when the instruction exits
  return writeAccount accs.nonce (.nonce nonce) w

/-! ## The native token -/

/-- `SYSTEM_PROGRAM_INTENT_TRANSFER_DISCRIMINATOR`. -/
def systemProgramIntentTransferDiscriminator : ℕ := 4000001

def intentTransferIx (source destination setter : Pubkey) (amount : UInt64) : Instruction where
  programId := Solana.systemProgram
  accounts := [⟨source, false, true⟩, ⟨destination, false, true⟩, ⟨setter, true, false⟩]
  data := leBytes 4 systemProgramIntentTransferDiscriminator ++ leBytes 8 amount.toNat

structure SendNativeAccounts where
  chainId : Pubkey
  sysvarInstructions : Pubkey
  intentTransferSetter : Pubkey
  source : Pubkey
  destination : Pubkey
  nonce : Pubkey
  sponsor : Pubkey
  feeMint : Pubkey
  feeConfig : Pubkey
  systemProgram : Pubkey
  tokenProgram : Pubkey
  associatedTokenProgram : Pubkey

/-- What the `Accounts` struct leaves the handler of `send_native` with. -/
structure SendNativeLoaded where
  chainId : String
  setterBump : UInt8
  nonce : UInt64
  world : IntentWorld

def SendNativeAccounts.load (ctx : Context) (accs : SendNativeAccounts) (w : IntentWorld) :
    IntentResult SendNativeLoaded := do
  let chainId ← loadChainId K rt w accs.chainId
  constrain (accs.sysvarInstructions = instructionsSysvar) .constraintAddress
  loadSigner ctx accs.sponsor
  let _ ← loadSplMint w accs.feeMint
  checkProgram accs.systemProgram Solana.systemProgram
  checkProgram accs.tokenProgram Solana.tokenProgram
  checkProgram accs.associatedTokenProgram Solana.associatedTokenProgram
  let setterBump ← findSeeds rt programId [intentTransferSeed] accs.intentTransferSetter
  let _ ← loadFeeConfig rt accs.feeMint accs.feeConfig w
  let (nonce, w) ← loadNonce rt accs.sponsor intentTransferNonceSeed accs.source accs.nonce w
  return ⟨chainId, setterBump, nonce, w⟩

/-- Neither fee account is used: the native token moves without a fee. -/
def sendNative (ctx : IntentContext) (accs : SendNativeAccounts) (w : IntentWorld) :
    IntentResult IntentWorld := do
  let loaded ← accs.load K rt ctx.toContext w
  let (message, signer) ← loadIntent (messageTryFrom K.intents) ctx
  require (loaded.chainId = message.chainId) .chainIdMismatch
  require (message.symbolOrMint = .symbol "FOGO") .symbolMismatch
  verifySignerMatchesSource signer accs.source
  require (message.recipient = accs.destination) .recipientMismatch
  let nonce ← verifyAndUpdateNonce loaded.nonce message.nonce
  let amount ← uiAmount K message.amount fogoDecimals
  let w ← invokeSigned rt programId ctx.toContext [intentTransferSeed, [loaded.setterBump]]
    (intentTransferIx accs.source accs.destination accs.intentTransferSetter amount) loaded.world
  return writeAccount accs.nonce (.nonce nonce) w

end FogoYield.Intent
