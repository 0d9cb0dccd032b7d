import FogoYield.Model.Intent.Message

/-! # State of the intent program

`programs/intent-transfer/src`: the ids and seeds, `error.rs`, `nonce.rs` and `config/state`, with
what the program takes from crates outside the repository. -/

namespace FogoYield.Intent

open FogoYield.Library FogoYield.Solana
open FogoYield.Relayer (ascii)

/-- `declare_id!`. -/
def programId : Pubkey :=
  ⟨[10, 180, 52, 229, 142, 79, 12, 84, 128, 227, 97, 243, 78, 118, 239, 69, 18, 47, 15, 214, 214,
   136, 181, 128, 241, 236, 13, 232, 224, 57, 90, 26]⟩

example : programId = Pubkey.literal "inTFf5S7ZtYr8SkwGG85mjDwAyJwjqEPdH2p2nuyrL9" := by decide +kernel

/-! ## Constants -/

def intentTransferSeed : Bytes := ascii "intent_transfer"
def intentTransferNonceSeed : Bytes := ascii "nonce"
def bridgeNttNonceSeed : Bytes := ascii "bridge_ntt_nonce"
def bridgeNttIntermediateSeed : Bytes := ascii "bridge_ntt_intermediate"
def feeConfigSeed : Bytes := ascii "fee_config"
def expectedNttConfigSeed : Bytes := ascii "expected_ntt_config"
def programSignerSeed : Bytes := ascii "fogo_session_program_signer"

/-- `FOGO_DECIMALS`. -/
def fogoDecimals : UInt8 := 9

/-- The instructions sysvar. -/
def instructionsSysvar : Pubkey := Pubkey.literal "Sysvar1nstructions1111111111111111111111111"

/-- `bpf_loader_upgradeable::ID`. -/
def bpfLoaderUpgradeable : Pubkey := Pubkey.literal "BPFLoaderUpgradeab1e11111111111111111111111"

/-! ## Errors -/

inductive IntentTransferError where
  | noIntentMessageInstruction
  | incorrectInstructionProgramId
  | signatureVerificationUnexpectedHeader
  | parseFailedError
  | deserializeFailedError
  | chainIdMismatch
  | signerSourceMismatch
  | recipientMismatch
  | mintMismatch
  | metadataAccountRequired
  | metadataAccountNotAllowed
  | metadataMismatch
  | symbolMismatch
  | nonceFailure
  | invalidRecipientAddress
  | unsupportedToChainId
  | invalidNttManager
  | unauthorized
  | invalidNttSignedQuote
  | insufficientFeeAmount
  /-- `ProgramError::InvalidArgument`, of a text that is no amount. -/
  | invalidArgument
  /-- `ProgramError::ArithmeticOverflow`. -/
  | arithmeticOverflow
  deriving DecidableEq

abbrev IntentResult (α : Type) := Result IntentTransferError α

/-! ## Accounts -/

structure FeeConfig where
  intrachainTransferFee : UInt64
  bridgeTransferFee : UInt64
  feeRecipient : Pubkey
  deriving DecidableEq

/-- The account types of the program, told apart by their discriminators. -/
inductive IntentData where
  | nonce (nonce : UInt64)
  | feeConfig (c : FeeConfig)
  /-- A `FeeConfig` of the layout before `fee_recipient` was appended. -/
  | oldFeeConfig (intrachainTransferFee bridgeTransferFee : UInt64)
  | expectedNttConfig (manager : Pubkey)
  deriving DecidableEq

def IntentData.asNonce : IntentData → Option UInt64
  | .nonce n => some n
  | _ => none

def IntentData.asFeeConfig : IntentData → Option FeeConfig
  | .feeConfig c => some c
  | _ => none

def IntentData.asExpectedNttConfig : IntentData → Option Pubkey
  | .expectedNttConfig manager => some manager
  | _ => none

/-- `DISCRIMINATOR.len() + INIT_SPACE` of each account type. -/
def nonceSpace : ℕ := 8 + 8
def feeConfigSpace : ℕ := 8 + 48
def expectedNttConfigSpace : ℕ := 8 + 32

/-- The program emits no events. -/
abbrev IntentWorld := World IntentData Empty
abbrev IntentRuntime := Runtime IntentData
abbrev IntentAccounts := Accounts IntentData

/-- Replace what an account of the program holds. -/
def writeAccount (k : Pubkey) (d : IntentData) (w : IntentWorld) : IntentWorld :=
  w.setAccount k { w.accounts k with data := .program d }

/-! ## What comes from elsewhere -/

/-- The crates the program is linked with: how they read a message, an amount, and the accounts of
the programs they belong to. -/
structure Crates where
  intents : Intents
  tryUiAmountIntoAmount : String → UInt8 → Option UInt64
  chainIdProgram : Pubkey
  chainIdSeed : Bytes
  /-- `ChainId::chain_id`. -/
  chainIdOf : Bytes → Option String
  metadataProgram : Pubkey
  /-- `Metadata::symbol`. -/
  metadataSymbol : Bytes → Option String
  /-- `ProgramData::upgrade_authority_address`. -/
  upgradeAuthorityOf : Bytes → Option (Option Pubkey)

/-- What a wallet signed. -/
structure SignedIntent where
  signer : Pubkey
  message : Bytes
  deriving DecidableEq

/-- A transaction as an instruction of the program sees it. `intent` is what `Intent::load` finds in
the instruction before: a signature the runtime has verified, or why there is none. -/
structure IntentContext extends Context where
  intent : Except IntentTransferError SignedIntent

/-- `Metadata::find_pda`. -/
def metadataPda (K : Crates) (rt : IntentRuntime) (mint : Pubkey) : Pubkey :=
  (rt.findProgramAddress [ascii "metadata", K.metadataProgram.bytes, mint.bytes]
    K.metadataProgram).1

end FogoYield.Intent
