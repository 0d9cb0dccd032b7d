import FogoYield.Model.Relayer.Receive

/-! # Route-agnostic swap

`instructions/swap.rs`. -/

namespace FogoYield.Relayer

open FogoYield.Library FogoYield.Solana

/-- The accounts `swap`, `send` and `refund` have in common. -/
structure FlowAccounts where
  pairConfig : Pubkey
  relayerAuthority : Pubkey
  baseMint : Pubkey
  assetMint : Pubkey
  baseAta : Pubkey
  assetAta : Pubkey
  nttInboxItem : Pubkey
  flow : Pubkey
  tokenProgram : Pubkey

structure FlowLoaded where
  config : PairConfig
  assetMint : Mint
  flow : Flow

/-- The constraints on the common accounts. -/
def FlowAccounts.load (rt : RelayerRuntime) (accs : FlowAccounts) (w : RelayerWorld) :
    RelayerResult FlowLoaded := do
  let config ← loadAccount programId RelayerData.asPairConfig w accs.pairConfig
  let _ ← loadMint w accs.baseMint
  let assetMint ← loadMint w accs.assetMint
  let flow ← loadAccount programId RelayerData.asFlow w accs.flow
  checkTokenInterface accs.tokenProgram
  checkSeeds rt programId [pairConfigSeed, accs.baseMint.bytes, accs.assetMint.bytes]
    config.bump accs.pairConfig
  constrain (config.baseMint = accs.baseMint) .constraintHasOne
  constrain (config.assetMint = accs.assetMint) .constraintHasOne
  checkSeeds rt programId [relayerSeed] config.relayerAuthorityBump accs.relayerAuthority
  let _ ← checkAssociatedToken rt w accs.baseMint accs.relayerAuthority accs.tokenProgram
    accs.baseAta
  let _ ← checkAssociatedToken rt w accs.assetMint accs.relayerAuthority accs.tokenProgram
    accs.assetAta
  checkSeeds rt programId (flowSeeds flow.direction accs.pairConfig accs.nttInboxItem)
    flow.bump accs.flow
  return ⟨config, assetMint, flow⟩

structure SwapAccounts extends FlowAccounts where
  feeVault : Pubkey
  swapProgram : Pubkey
  swapDelegate : Pubkey

def SwapAccounts.load (rt : RelayerRuntime) (accs : SwapAccounts) (w : RelayerWorld) :
    RelayerResult FlowLoaded := do
  let loaded ← accs.toFlowAccounts.load rt w
  constrain (loaded.config.feeVault = accs.feeVault) .constraintHasOne
  let _ ← checkTokenMint w accs.assetMint accs.tokenProgram accs.feeVault
  return loaded

/-- `(input, output)` of the swap leg: a deposit spends base for asset, a withdraw asset for
base. -/
def inOut {α : Type} (direction : Direction) (base asset : α) : α × α :=
  match direction with
  | .deposit => (base, asset)
  | .withdraw => (asset, base)

/-- The account filter: a route may name neither the fee vault, the config nor the flow, and of
the relayer's token accounts only the two operating ones. -/
def swapAccountAllowed (accs : SwapAccounts) (w : RelayerWorld) (k : Pubkey) : Bool :=
  if k = accs.feeVault ∨ k = accs.pairConfig ∨ k = accs.flow then false
  else if k = accs.baseAta ∨ k = accs.assetAta then true
  else
    match tokenAt w.accounts k with
    | some t => decide (t.owner ≠ accs.relayerAuthority)
    | none => true

/-- The asset-denominated fee skim. -/
def skimFee (rt : RelayerRuntime) (ctx : Context) (accs : SwapAccounts) (loaded : FlowLoaded)
    (amount : UInt64) (w : RelayerWorld) : RelayerResult RelayerWorld :=
  relayerSignedTransferChecked rt ctx accs.tokenProgram accs.assetAta accs.assetMint
    accs.feeVault accs.relayerAuthority loaded.config.relayerAuthorityBump amount
    loaded.assetMint.decimals w

/-- The fee of a withdraw comes out of the input. Returns the amount to swap and the fee. -/
def skimInput (rt : RelayerRuntime) (ctx : Context) (accs : SwapAccounts) (loaded : FlowLoaded)
    (w : RelayerWorld) : RelayerResult (UInt64 × UInt64 × RelayerWorld) :=
  match loaded.flow.direction with
  | .deposit => return (loaded.flow.amount, 0, w)
  | .withdraw => do
    let (net, fee) ← loaded.config.applyWithdrawFee loaded.flow.amount
    require (0 < net) .zeroAmountFlow
    let w ← skimFee rt ctx accs loaded fee w
    return (net, fee, w)

/-- The fee of a deposit comes out of the output. Returns the net output and the fee. -/
def skimOutput (rt : RelayerRuntime) (ctx : Context) (accs : SwapAccounts) (loaded : FlowLoaded)
    (outReceived feeBefore : UInt64) (w : RelayerWorld) :
    RelayerResult (UInt64 × UInt64 × RelayerWorld) :=
  match loaded.flow.direction with
  | .deposit => do
    let (net, fee) ← loaded.config.applyDepositFee outReceived
    let w ← skimFee rt ctx accs loaded fee w
    return (net, fee, w)
  | .withdraw => return (outReceived, feeBefore, w)

/-- Stale delegates are revoked; a delegate other than the authority itself is approved for
exactly the input. -/
def prepareDelegates (rt : RelayerRuntime) (ctx : Context) (accs : SwapAccounts)
    (loaded : FlowLoaded) (swapIn : UInt64) (w : RelayerWorld) : RelayerResult RelayerWorld := do
  let bump := loaded.config.relayerAuthorityBump
  let w ← revokeRelayerDelegate rt ctx accs.tokenProgram accs.baseAta accs.relayerAuthority bump w
  let w ← revokeRelayerDelegate rt ctx accs.tokenProgram accs.assetAta accs.relayerAuthority bump w
  if accs.swapDelegate ≠ accs.relayerAuthority then
    approveSwapDelegate rt ctx accs.tokenProgram
      (inOut loaded.flow.direction accs.baseAta accs.assetAta).1 accs.relayerAuthority bump
      accs.swapDelegate swapIn w
  else return w

/-- The router call, and that it left the authority's own account alone. -/
def callRouter (rt : RelayerRuntime) (ctx : Context) (accs : SwapAccounts) (loaded : FlowLoaded)
    (swapIxData : Bytes) (w : RelayerWorld) : RelayerResult RelayerWorld := do
  let authPre := w.accounts accs.relayerAuthority
  let w ← invokeSigned rt programId ctx (authoritySeeds loaded.config.relayerAuthorityBump)
    ⟨accs.swapProgram, forwardMetas ctx.remaining (some accs.relayerAuthority), swapIxData⟩ w
  let authPost := w.accounts accs.relayerAuthority
  require (authPre.lamports ≤ authPost.lamports) .relayerAuthorityTampered
  require (authPost.owner = authPre.owner) .relayerAuthorityTampered
  require (authPost.data.isEmpty = true) .relayerAuthorityTampered
  return w

def assertAtaUntampered (ata : TokenAccount) (expectedOwner : Pubkey) : RelayerResult Unit := do
  require (ata.owner = expectedOwner) .ataAuthorityTampered
  require (ata.delegate = none) .ataAuthorityTampered
  require (ata.delegatedAmount = 0) .ataAuthorityTampered
  require (ata.closeAuthority = none) .ataAuthorityTampered

/-- The measured part of the swap: input must fall by exactly `swapIn`, output must rise by at
least the floor, and both operating accounts must come back untampered. Returns the output. -/
def measuredSwap (rt : RelayerRuntime) (ctx : Context) (accs : SwapAccounts) (loaded : FlowLoaded)
    (swapIn : UInt64) (swapIxData : Bytes) (w : RelayerWorld) :
    RelayerResult (UInt64 × RelayerWorld) := do
  let base ← loadToken w accs.baseAta
  let asset ← loadToken w accs.assetAta
  let (inBefore, outBefore) := inOut loaded.flow.direction base.amount asset.amount
  require (swapIn ≤ inBefore) .zeroAmountFlow
  let w ← prepareDelegates rt ctx accs loaded swapIn w
  let w ← callRouter rt ctx accs loaded swapIxData w
  let base ← loadToken w accs.baseAta
  let asset ← loadToken w accs.assetAta
  let (inAfter, outAfter) := inOut loaded.flow.direction base.amount asset.amount
  let inConsumed ← liftOption (checkedSub inBefore inAfter) .balanceUnderflow
  let outReceived ← liftOption (checkedSub outAfter outBefore) .balanceUnderflow
  require (inConsumed = swapIn) .inputConsumedMismatch
  require (loaded.flow.minSwapOut ≤ outReceived) .outputBelowFloor
  assertAtaUntampered base accs.relayerAuthority
  assertAtaUntampered asset accs.relayerAuthority
  return (outReceived, w)

def swap (rt : RelayerRuntime) (ctx : Context) (accs : SwapAccounts) (swapIxData : Bytes)
    (w : RelayerWorld) : RelayerResult RelayerWorld := do
  let loaded ← accs.load rt w
  let flow := loaded.flow
  require (flow.status = .received) .flowStatusMismatch
  require (accs.swapProgram ≠ programId) .swapAccountNotAllowed
  require (∀ acc ∈ ctx.remaining, swapAccountAllowed accs w acc.pubkey = true)
    .swapAccountNotAllowed
  require (0 < flow.amount) .zeroAmountFlow
  let (swapIn, feeBefore, w) ← skimInput rt ctx accs loaded w
  let (outReceived, w) ← measuredSwap rt ctx accs loaded swapIn swapIxData w
  let (netOut, fee, w) ← skimOutput rt ctx accs loaded outReceived feeBefore w
  let w := writeAccount accs.flow (.flow { flow with amount := netOut, status := .swapped }) w
  return w.emit (.swapped accs.flow flow.direction flow.amount fee netOut flow.minSwapOut
    accs.swapProgram)

end FogoYield.Relayer
