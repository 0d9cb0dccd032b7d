import FogoYield.Model.Relayer.Cpi

/-! # Governance instructions

`instructions/{bootstrap,initialize,configure,accept_authority,admin}.rs`. -/

namespace FogoYield.Relayer

open FogoYield.Library FogoYield.Solana

/-- Write an account's data back, as `exit` does. -/
def writeAccount (k : Pubkey) (d : RelayerData) (w : RelayerWorld) : RelayerWorld :=
  w.setAccount k { w.accounts k with data := .program d }

/-! ## Bootstrap -/

structure BootstrapAccounts where
  admin : Pubkey
  globalConfig : Pubkey
  systemProgram : Pubkey

def bootstrap (rt : RelayerRuntime) (ctx : Context) (accs : BootstrapAccounts)
    (w : RelayerWorld) : RelayerResult RelayerWorld := do
  loadSigner ctx accs.admin
  checkProgram accs.systemProgram systemProgram
  let bump ← findSeeds rt programId [globalConfigSeed] accs.globalConfig
  let w ← createAccount rt accs.admin accs.globalConfig programId globalConfigSpace (.raw []) w
  return writeAccount accs.globalConfig (.globalConfig ⟨accs.admin, bump, none⟩) w

/-! ## Initialize -/

structure InitializeAccounts where
  authority : Pubkey
  globalConfig : Pubkey
  pairConfig : Pubkey
  relayerAuthority : Pubkey
  baseMint : Pubkey
  assetMint : Pubkey
  baseAta : Pubkey
  assetAta : Pubkey
  feeVault : Pubkey
  tokenProgram : Pubkey
  associatedTokenProgram : Pubkey
  systemProgram : Pubkey

structure InitializeArgs where
  depositFeeBps : UInt16
  withdrawFeeBps : UInt16
  nttBaseProgram : Pubkey
  nttAssetProgram : Pubkey
  intentPrograms : Pubkey × Pubkey

/-- The config `initialize` writes. -/
def initialConfig (accs : InitializeAccounts) (args : InitializeArgs)
    (relayerAuthorityBump bump : UInt8) : PairConfig where
  baseMint := accs.baseMint
  assetMint := accs.assetMint
  authority := accs.authority
  feeVault := accs.feeVault
  nttBaseProgram := args.nttBaseProgram
  nttAssetProgram := args.nttAssetProgram
  intentPrograms := args.intentPrograms
  depositFeeBps := args.depositFeeBps
  withdrawFeeBps := args.withdrawFeeBps
  relayerAuthorityBump := relayerAuthorityBump
  bump := bump
  pendingAuthority := none
  pendingFee := none

/-- The `initialize` instruction; the word itself is reserved in Lean. -/
def initializePair (rt : RelayerRuntime) (ctx : Context) (accs : InitializeAccounts)
    (args : InitializeArgs) (w : RelayerWorld) : RelayerResult RelayerWorld := do
  -- every account that is not created here is deserialised first
  loadSigner ctx accs.authority
  let g ← loadAccount programId RelayerData.asGlobalConfig w accs.globalConfig
  let _ ← loadMint w accs.baseMint
  let _ ← loadMint w accs.assetMint
  let _ ← loadToken w accs.feeVault
  checkTokenInterface accs.tokenProgram
  checkProgram accs.associatedTokenProgram associatedTokenProgram
  checkProgram accs.systemProgram systemProgram
  checkSeeds rt programId [globalConfigSeed] g.bump accs.globalConfig
  require (g.admin = accs.authority) .unauthorizedAdmin
  let bump ← findSeeds rt programId
    [pairConfigSeed, accs.baseMint.bytes, accs.assetMint.bytes] accs.pairConfig
  let w ← createAccount rt accs.authority accs.pairConfig programId pairConfigSpace (.raw []) w
  let relayerAuthorityBump ← findSeeds rt programId [relayerSeed] accs.relayerAuthority
  let w ← initAssociatedToken rt accs.authority accs.baseMint accs.relayerAuthority
    accs.tokenProgram accs.baseAta w
  let w ← initAssociatedToken rt accs.authority accs.assetMint accs.relayerAuthority
    accs.tokenProgram accs.assetAta w
  let _ ← checkTokenMint w accs.assetMint accs.tokenProgram accs.feeVault
  require (accs.feeVault ≠ accs.assetAta) .feeVaultAliasesUserAta
  let config := initialConfig accs args relayerAuthorityBump bump
  config.validate
  return writeAccount accs.pairConfig (.pairConfig config) w

/-! ## Configure -/

structure ConfigureAccounts where
  authority : Pubkey
  pairConfig : Pubkey
  relayerAuthority : Pubkey
  assetMint : Pubkey
  assetAta : Pubkey
  feeVault : Option Pubkey
  tokenProgram : Pubkey

structure ConfigureArgs where
  depositFeeBps : Option UInt16
  withdrawFeeBps : Option UInt16
  newAuthority : Option Pubkey

/-- An optional proposal for one leg. -/
def PairConfig.proposeFee (c : PairConfig) (leg : Leg) (proposed : Option UInt16) (now : UInt64) :
    RelayerResult PairConfig :=
  match leg, proposed with
  | _, none => return c
  | .deposit, some v => c.proposeDepositFee v now
  | .withdraw, some v => c.proposeWithdrawFee v now

def PairConfig.setFeeVault (c : PairConfig) (assetAta : Pubkey) (feeVault : Option Pubkey) :
    RelayerResult PairConfig :=
  match feeVault with
  | none => return c
  | some vault => do
    require (vault ≠ assetAta) .feeVaultAliasesUserAta
    return { c with feeVault := vault }

/-- The all-zero key withdraws a proposal. -/
def PairConfig.proposeAuthority (c : PairConfig) (newAuthority : Option Pubkey) :
    RelayerResult PairConfig :=
  match newAuthority with
  | none => return c
  | some proposed =>
    if proposed = Pubkey.default then return { c with pendingAuthority := none }
    else do
      require (proposed ≠ c.authority) .pendingAuthorityIsCurrent
      return { c with pendingAuthority := some proposed }

/-- What the handler makes of the config at slot `now`. -/
def PairConfig.configure (c : PairConfig) (assetAta : Pubkey) (feeVault : Option Pubkey)
    (args : ConfigureArgs) (now : UInt64) : RelayerResult PairConfig := do
  let c := c.promotePendingFeeIfReady now
  let c ← c.proposeFee .deposit args.depositFeeBps now
  let c ← c.proposeFee .withdraw args.withdrawFeeBps now
  let c ← c.setFeeVault assetAta feeVault
  let c ← c.proposeAuthority args.newAuthority
  c.validate
  return c

def checkFeeVault (w : RelayerWorld) (assetMint tokenProgram : Pubkey) :
    Option Pubkey → RelayerResult Unit
  | none => return ()
  | some vault => do
    let _ ← checkTokenMint w assetMint tokenProgram vault
    return ()

def configure (rt : RelayerRuntime) (ctx : Context) (accs : ConfigureAccounts)
    (args : ConfigureArgs) (w : RelayerWorld) : RelayerResult RelayerWorld := do
  loadSigner ctx accs.authority
  let c ← loadAccount programId RelayerData.asPairConfig w accs.pairConfig
  let _ ← loadMint w accs.assetMint
  checkTokenInterface accs.tokenProgram
  checkSeeds rt programId [pairConfigSeed, c.baseMint.bytes, accs.assetMint.bytes] c.bump
    accs.pairConfig
  require (c.authority = accs.authority) .unauthorizedAuthority
  constrain (c.assetMint = accs.assetMint) .constraintHasOne
  checkSeeds rt programId [relayerSeed] c.relayerAuthorityBump accs.relayerAuthority
  let _ ← checkAssociatedToken rt w accs.assetMint accs.relayerAuthority accs.tokenProgram
    accs.assetAta
  checkFeeVault w accs.assetMint accs.tokenProgram accs.feeVault
  let c ← c.configure accs.assetAta accs.feeVault args w.clock.slot
  return writeAccount accs.pairConfig (.pairConfig c) w

/-! ## Two-step hand-over -/

structure AcceptAuthorityAccounts where
  pendingAuthority : Pubkey
  pairConfig : Pubkey

def PairConfig.acceptAuthority (c : PairConfig) (signer : Pubkey) : RelayerResult PairConfig := do
  let pending ← liftOption c.pendingAuthority .noPendingAuthority
  require (signer = pending) .pendingAuthorityMismatch
  return { c with authority := pending, pendingAuthority := none }

def acceptAuthority (rt : RelayerRuntime) (ctx : Context) (accs : AcceptAuthorityAccounts)
    (w : RelayerWorld) : RelayerResult RelayerWorld := do
  loadSigner ctx accs.pendingAuthority
  let c ← loadAccount programId RelayerData.asPairConfig w accs.pairConfig
  checkSeeds rt programId [pairConfigSeed, c.baseMint.bytes, c.assetMint.bytes] c.bump
    accs.pairConfig
  let c ← c.acceptAuthority accs.pendingAuthority
  return writeAccount accs.pairConfig (.pairConfig c) w

structure SetAdminAccounts where
  admin : Pubkey
  globalConfig : Pubkey

def setAdmin (rt : RelayerRuntime) (ctx : Context) (accs : SetAdminAccounts) (newAdmin : Pubkey)
    (w : RelayerWorld) : RelayerResult RelayerWorld := do
  loadSigner ctx accs.admin
  let g ← loadAccount programId RelayerData.asGlobalConfig w accs.globalConfig
  checkSeeds rt programId [globalConfigSeed] g.bump accs.globalConfig
  require (g.admin = accs.admin) .unauthorizedAdmin
  require (newAdmin ≠ g.admin) .pendingAdminIsCurrent
  return writeAccount accs.globalConfig (.globalConfig { g with pendingAdmin := some newAdmin }) w

structure AcceptAdminAccounts where
  pendingAdmin : Pubkey
  globalConfig : Pubkey

def acceptAdmin (rt : RelayerRuntime) (ctx : Context) (accs : AcceptAdminAccounts)
    (w : RelayerWorld) : RelayerResult RelayerWorld := do
  loadSigner ctx accs.pendingAdmin
  let g ← loadAccount programId RelayerData.asGlobalConfig w accs.globalConfig
  checkSeeds rt programId [globalConfigSeed] g.bump accs.globalConfig
  let pending ← liftOption g.pendingAdmin .noPendingAdmin
  require (accs.pendingAdmin = pending) .pendingAdminMismatch
  return writeAccount accs.globalConfig
    (.globalConfig { g with admin := pending, pendingAdmin := none }) w

end FogoYield.Relayer
