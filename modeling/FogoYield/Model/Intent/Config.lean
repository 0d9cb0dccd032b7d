import FogoYield.Model.Intent.Verify

/-! # The configuration of the intent program

`programs/intent-transfer/src/config/processor`, every instruction of which the program's upgrade
authority has to sign. -/

namespace FogoYield.Intent

open FogoYield.Library FogoYield.Solana

variable (K : Crates) (rt : IntentRuntime)

/-- The accounts of the three instructions: `upgrade_authority`, the mint and its config. -/
structure ConfigAccounts where
  signer : Pubkey
  programData : Pubkey
  mint : Pubkey
  config : Pubkey
  systemProgram : Pubkey

def expectedNttConfigSeeds (mint : Pubkey) : List Bytes := [expectedNttConfigSeed, mint.bytes]
def feeConfigSeeds (mint : Pubkey) : List Bytes := [feeConfigSeed, mint.bytes]

/-- What the `Accounts` structs of the three have in common. -/
def ConfigAccounts.load (ctx : Context) (accs : ConfigAccounts) (seeds : List Bytes)
    (w : IntentWorld) : IntentResult Unit := do
  loadUpgradeAuthority K rt ctx accs.signer accs.programData w
  let _ ← loadSplMint w accs.mint
  checkProgram accs.systemProgram Solana.systemProgram
  let _ ← findSeeds rt programId seeds accs.config

def registerNttConfig (ctx : Context) (accs : ConfigAccounts) (nttManager : Pubkey)
    (w : IntentWorld) : IntentResult IntentWorld := do
  accs.load K rt ctx (expectedNttConfigSeeds accs.mint) w
  let w ← initIfNeeded rt accs.signer accs.config programId expectedNttConfigSpace
    (.program (.expectedNttConfig Pubkey.default)) w
  let _ ← loadAccount programId IntentData.asExpectedNttConfig w accs.config
  return writeAccount accs.config (.expectedNttConfig nttManager) w

def registerFeeConfig (ctx : Context) (accs : ConfigAccounts) (feeConfig : FeeConfig)
    (w : IntentWorld) : IntentResult IntentWorld := do
  accs.load K rt ctx (feeConfigSeeds accs.mint) w
  let w ← initIfNeeded rt accs.signer accs.config programId feeConfigSpace
    (.program (.feeConfig ⟨0, 0, Pubkey.default⟩)) w
  let _ ← loadAccount programId IntentData.asFeeConfig w accs.config
  return writeAccount accs.config (.feeConfig feeConfig) w

/-- The account is taken unparsed, topped up to the rent of the current layout, grown and written
over. Only an account of the program can be grown. -/
def updateFeeConfig (ctx : Context) (accs : ConfigAccounts) (feeConfig : FeeConfig)
    (w : IntentWorld) : IntentResult IntentWorld := do
  accs.load K rt ctx (feeConfigSeeds accs.mint) w
  let needed := rt.minimumBalance feeConfigSpace
  let current := (w.accounts accs.config).lamports
  let topUp := needed - current
  constrain (topUp ≤ (w.accounts accs.signer).lamports) .insufficientLamports
  let paid := setLamports w.accounts accs.signer ((w.accounts accs.signer).lamports - topUp)
  let funded := setLamports paid accs.config ((paid accs.config).lamports + topUp)
  constrain ((w.accounts accs.config).owner = programId) .accountOwnedByWrongProgram
  return writeAccount accs.config (.feeConfig feeConfig) { w with accounts := funded }

end FogoYield.Intent
