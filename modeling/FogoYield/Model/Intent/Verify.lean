import FogoYield.Model.Intent.State

/-! # Checks and calls the instructions share

`verify.rs`, `nonce.rs`, `fees.rs`, `session_token.rs` and `config/access_control.rs` of
`programs/intent-transfer/src`. -/

namespace FogoYield.Intent

open FogoYield.Library FogoYield.Solana
open FogoYield.Relayer (ascii)

variable (K : Crates) (rt : IntentRuntime)

/-! ## Account types -/

/-- `Account<TokenAccount>` and `Account<Mint>` of the classic token program. -/
def loadSplToken (w : IntentWorld) (k : Pubkey) : IntentResult TokenAccount := do
  let t ← loadToken w k
  constrain ((w.accounts k).owner = tokenProgram) .accountOwnedByWrongProgram
  return t

def loadSplMint (w : IntentWorld) (k : Pubkey) : IntentResult Mint := do
  let m ← loadMint w k
  constrain ((w.accounts k).owner = tokenProgram) .accountOwnedByWrongProgram
  return m

/-- `Account<ChainId>` at the address the crate `chain_id` stores it. -/
def loadChainId (w : IntentWorld) (k : Pubkey) : IntentResult String := do
  constrain ((w.accounts k).owner = K.chainIdProgram) .accountOwnedByWrongProgram
  let _ ← findSeeds rt K.chainIdProgram [K.chainIdSeed] k
  match K.chainIdOf (w.accounts k).bytes with
  | some chainId => return chainId
  | none => .error (.anchor .accountDiscriminatorMismatch)

/-- `init_if_needed` of an account: one the system program still owns is created. -/
def initIfNeeded (payer k owner : Pubkey) (space : ℕ) (data : Data IntentData) (w : IntentWorld) :
    IntentResult IntentWorld :=
  if (w.accounts k).owner = systemProgram then createAccount rt payer k owner space data w
  else return w

def initAssociatedTokenIfNeeded (payer mint authority k : Pubkey) (w : IntentWorld) :
    IntentResult IntentWorld :=
  if (w.accounts k).owner = systemProgram then
    initAssociatedToken rt payer mint authority tokenProgram k w
  else return w

/-- The `Nonce` of `owner` under `seed`, created at zero when it is missing. -/
def loadNonce (payer : Pubkey) (seed : Bytes) (owner k : Pubkey) (w : IntentWorld) :
    IntentResult (UInt64 × IntentWorld) := do
  let _ ← findSeeds rt programId [seed, owner.bytes] k
  let w ← initIfNeeded rt payer k programId nonceSpace (.program (.nonce 0)) w
  let nonce ← loadAccount programId IntentData.asNonce w k
  return (nonce, w)

def loadFeeConfig (feeMint k : Pubkey) (w : IntentWorld) : IntentResult FeeConfig := do
  let c ← loadAccount programId IntentData.asFeeConfig w k
  let _ ← findSeeds rt programId [feeConfigSeed, feeMint.bytes] k
  return c

/-- `UpgradeAuthority`: the signer the loader names for the program. -/
def loadUpgradeAuthority (ctx : Context) (signer programData : Pubkey) (w : IntentWorld) :
    IntentResult Unit := do
  loadSigner ctx signer
  constrain ((w.accounts programData).owner = bpfLoaderUpgradeable) .accountOwnedByWrongProgram
  let _ ← findSeeds rt bpfLoaderUpgradeable [programId.bytes] programData
  match K.upgradeAuthorityOf (w.accounts programData).bytes with
  | none => .error (.anchor .accountDiscriminatorMismatch)
  | some none => .error (.custom .unauthorized)
  | some (some authority) => constrain (signer = authority) .constraintAddress

/-! ## Checks -/

/-- `{symbol:\0<10}`: padded to ten characters. -/
def padSymbol (symbol : String) : String :=
  symbol ++ String.ofList (List.replicate (10 - symbol.length) (Char.ofNat 0))

def verifySymbolOrMint (symbolOrMint : SymbolOrMint) (metadata : Option Pubkey) (mint : Pubkey)
    (w : IntentWorld) : IntentResult Unit :=
  match symbolOrMint, metadata with
  | .symbol symbol, some metadata => do
    require (metadata = metadataPda K rt mint) .metadataMismatch
    match K.metadataSymbol (w.accounts metadata).bytes with
    | some held => require (held = padSymbol symbol) .symbolMismatch
    | none => .error (.anchor .accountDiscriminatorMismatch)
  | .symbol _, none => .error (.custom .metadataAccountRequired)
  | .mint expectedMint, none => require (expectedMint = mint) .mintMismatch
  | .mint _, some _ => .error (.custom .metadataAccountNotAllowed)

def verifySignerMatchesSource (signer sourceOwner : Pubkey) : IntentResult Unit :=
  require (signer = sourceOwner) .signerSourceMismatch

/-- `require_eq!(new_nonce, nonce.nonce + 1)`; the addition aborts at the last `u64`. -/
def verifyAndUpdateNonce (nonce newNonce : UInt64) : IntentResult UInt64 := do
  require (newNonce.toNat = nonce.toNat + 1) .nonceFailure
  return newNonce

/-- `try_ui_amount_into_amount`. -/
def uiAmount (amount : String) (decimals : UInt8) : IntentResult UInt64 :=
  liftOption (K.tryUiAmountIntoAmount amount decimals) .invalidArgument

/-! ## The session rail -/

/-- `TRANSFER_CHECKED_IX`. -/
def transferCheckedIxTag : UInt8 := 12

/-- A `transfer_checked` with the program signer as a fifth account. -/
def inSessionTransferIx (tp source mint destination authority programSigner : Pubkey)
    (amount : UInt64) (decimals : UInt8) : Instruction where
  programId := tp
  accounts := [⟨source, false, true⟩, ⟨mint, false, false⟩, ⟨destination, false, true⟩,
    ⟨authority, true, false⟩, ⟨programSigner, true, false⟩]
  data := transferCheckedIxTag :: (leBytes 8 amount.toNat ++ [decimals])

/-- `bump` is the one of the program signer. -/
def inSessionTransferChecked (ctx : Context)
    (source mint destination authority programSigner : Pubkey) (bump : UInt8) (amount : UInt64)
    (decimals : UInt8) (w : IntentWorld) : IntentResult IntentWorld :=
  invokeSigned rt programId ctx [programSignerSeed, [bump]]
    (inSessionTransferIx tokenProgram source mint destination authority programSigner amount
      decimals) w

/-! ## Fees -/

/-- The accounts of `VerifyAndCollectAccounts`, with the config the fee is in. -/
structure FeeAccounts where
  feeSource : Pubkey
  feeDestination : Pubkey
  feeMint : Pubkey
  feeMetadata : Option Pubkey
  feeConfig : Pubkey
  signerOrSession : Pubkey
  programSigner : Pubkey

/-- What the constraints on the fee accounts leave the handler with. -/
structure FeeLoaded where
  config : FeeConfig
  mint : Mint
  /-- The bump of the program signer. -/
  signerBump : UInt8

/-- The fee comes from an account of `owner`, and goes to the recipient's associated one. -/
def FeeAccounts.load (ctx : Context) (accs : FeeAccounts) (owner : Pubkey) (w : IntentWorld) :
    IntentResult FeeLoaded := do
  let config ← loadFeeConfig rt accs.feeMint accs.feeConfig w
  let mint ← loadSplMint w accs.feeMint
  let source ← checkTokenMint w accs.feeMint tokenProgram accs.feeSource
  constrain (source.owner = owner) .constraintTokenOwner
  let _ ← checkAssociatedToken rt w accs.feeMint config.feeRecipient tokenProgram
    accs.feeDestination
  loadSigner ctx accs.signerOrSession
  let bump ← findSeeds rt programId [programSignerSeed] accs.programSigner
  return ⟨config, mint, bump⟩

/-- `verify_and_collect_fee`; `feeAmount` is the fee of the instruction. -/
def verifyAndCollectFee (ctx : Context) (accs : FeeAccounts) (loaded : FeeLoaded)
    (feeAmount : UInt64) (intentFeeAmount : String) (feeSymbolOrMint : SymbolOrMint)
    (w : IntentWorld) : IntentResult IntentWorld := do
  verifySymbolOrMint K rt feeSymbolOrMint accs.feeMetadata accs.feeMint w
  let intentFeeAmount ← uiAmount K intentFeeAmount loaded.mint.decimals
  require (feeAmount ≤ intentFeeAmount) .insufficientFeeAmount
  inSessionTransferChecked rt ctx accs.feeSource accs.feeMint accs.feeDestination
    accs.signerOrSession accs.programSigner loaded.signerBump feeAmount loaded.mint.decimals w

end FogoYield.Intent
