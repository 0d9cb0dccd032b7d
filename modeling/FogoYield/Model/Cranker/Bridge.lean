import FogoYield.Model.Cranker.Enumerate

/-! # The bridge redeemer

`packages/cranker/src/bridge/redeem.ts`, `sdk-redeem.ts` and `scan.ts`, and `runBounded` of
`utils/concurrency.ts`. What the RPC, the bridge SDK and the submitted transactions come to are
inputs. -/

namespace FogoYield.Cranker

open FogoYield.Library FogoYield.Solana FogoYield.Sdk
open FogoYield.Relayer (RelayerRuntime)

/-! ## Targets, plans and results -/

inductive NttManagerMode where
  | locking
  | burning
  deriving DecidableEq

structure BridgeRedeemTarget where
  sourceChainId : ℕ
  sourceEmitterHex : String
  destChainId : ℕ
  destNttManagerProgramId : Pubkey
  destWhTransceiverProgramId : Pubkey
  destMint : Pubkey
  destSigner : Pubkey
  destReleaseMode : NttManagerMode
  configReady : Bool
  configError : Option String

/-- Why nothing is submitted. -/
inductive NoopReason where
  | nttNotConfigured (configError : String)
  | unparseable (err : VaaError)
  | toChainMismatch (toChain destChainId : ℕ)
  | fromChainMismatch (fromChain sourceChainId : ℕ)
  | notDecodable (nttInboxItem : Pubkey)
  | alreadyReleased (nttInboxItem : Pubkey)
  | gatedUntil (timestamp : ℤ)
  | alreadyExecuted
  | abortedMidRedeem
  | noTransactions
  deriving DecidableEq

inductive BridgeError where
  /-- `TokenOwnerOffCurveError` of `getAssociatedTokenAddressSync`. -/
  | tokenOwnerOffCurve
  | deserialize
  | ensureRecipientAta
  | sdkStep
  | sendAndConfirm
  deriving DecidableEq

/-- What the release instruction is built from. -/
structure ReleaseInboundParams where
  mode : NttManagerMode
  payer : Pubkey
  nttManagerProgramId : Pubkey
  mint : Pubkey
  nttInboxItem : Pubkey
  recipientAta : Pubkey
  deriving DecidableEq

inductive BridgePlan where
  | noop (reason : NoopReason)
  | redeemAndRelease
  | releaseOnly (release : ReleaseInboundParams)
  deriving DecidableEq

inductive BridgeAction where
  | redeemAndRelease
  | releaseOnly
  deriving DecidableEq

inductive BridgeRedeemResult where
  | submitted (signature : String) (action : BridgeAction)
  | noop (reason : NoopReason)
  | error (err : BridgeError)
  deriving DecidableEq

def BridgeRedeemResult.isError : BridgeRedeemResult → Bool
  | .error _ => true
  | _ => false

/-! ## Plans -/

/-- `getAccountInfo` behind its `catch`: a failed call reads as no account. -/
def AccountRead.orNull : AccountRead → Option Bytes
  | .found data => some data
  | _ => none

/-- `planBridgeRedeem` for an inbox item whose state is known, or that is missing. -/
def planRelease (rt : RelayerRuntime) (onCurve : Pubkey → Bool) (target : BridgeRedeemTarget)
    (resolved : ResolvedNttVaa) (inboxState : Option NttInboxItem) :
    Except BridgeError BridgePlan :=
  let recipientWallet := resolved.recipientOnSolana
  if onCurve recipientWallet then
    match inboxState with
    | none => .ok .redeemAndRelease
    | some _ => .ok (.releaseOnly
        { mode := target.destReleaseMode
          payer := target.destSigner
          nttManagerProgramId := target.destNttManagerProgramId
          mint := target.destMint
          nttInboxItem := resolved.nttInboxItem
          recipientAta := associatedTokenAddress rt target.destMint recipientWallet })
  else .error .tokenOwnerOffCurve

/-- `planBridgeRedeem` behind the filters. `now` is in seconds. -/
def planInbox (rt : RelayerRuntime) (onCurve : Pubkey → Bool) (target : BridgeRedeemTarget)
    (resolved : ResolvedNttVaa) (inboxInfo : Option Bytes) (now : ℤ) :
    Except BridgeError BridgePlan :=
  match inboxInfo with
  | none => planRelease rt onCurve target resolved none
  | some data =>
    match decodeNttInboxItem data with
    | none => .ok (.noop (.notDecodable resolved.nttInboxItem))
    | some inboxState =>
      match inboxState.releaseStatus with
      | .released => .ok (.noop (.alreadyReleased resolved.nttInboxItem))
      | .releaseAfter timestamp =>
        if now < timestamp then .ok (.noop (.gatedUntil timestamp))
        else planRelease rt onCurve target resolved (some inboxState)
      | .notApproved => planRelease rt onCurve target resolved (some inboxState)

/-- What to do with one VAA. The batched read stands in for the VAA's own where there is one. -/
def planBridgeRedeem (rt : RelayerRuntime) (onCurve : Pubkey → Bool)
    (target : BridgeRedeemTarget) (vaaBytes : Bytes) (prefetched : Option (Option Bytes))
    (getAccountInfo : Pubkey → AccountRead) (now : ℤ) : Except BridgeError BridgePlan :=
  if target.configReady = false then
    .ok (.noop (.nttNotConfigured (target.configError.getD "governance state missing")))
  else
    match resolveNttVaa rt vaaBytes target.destNttManagerProgramId
        (some target.destWhTransceiverProgramId) with
    | .error err => .ok (.noop (.unparseable err))
    | .ok resolved =>
      if resolved.manager.toChain ≠ target.destChainId then
        .ok (.noop (.toChainMismatch resolved.manager.toChain target.destChainId))
      else if resolved.fromChain ≠ target.sourceChainId then
        .ok (.noop (.fromChainMismatch resolved.fromChain target.sourceChainId))
      else
        let inboxInfo := prefetched.getD (getAccountInfo resolved.nttInboxItem).orNull
        planInbox rt onCurve target resolved inboxInfo now

/-! ## Submission -/

/-- One turn of `ntt.redeem`: it throws, or yields a transaction, to which the abort signal is
looked at first and whose submission throws or has a signature. -/
inductive SdkStep where
  | throws
  | yields (aborted : Bool) (sent : Option String)
  deriving DecidableEq

/-- What the bridge SDK does with one VAA. -/
structure SdkRedeem where
  deserializes : Bool
  /-- `getIsExecuted`, without a result if it throws. -/
  isExecuted : Option Bool
  ensuresRecipientAta : Bool
  steps : List SdkStep

/-- The `for await` over the transactions, with the last signature. -/
def submitSteps : List SdkStep → Option String → BridgeRedeemResult
  | [], none => .noop .noTransactions
  | [], some lastSig => .submitted lastSig .redeemAndRelease
  | .throws :: _, _ => .error .sdkStep
  | .yields true _ :: _, _ => .noop .abortedMidRedeem
  | .yields false none :: _, _ => .error .sdkStep
  | .yields false (some sig) :: steps, _ => submitSteps steps (some sig)

def executeSdkBundledRedeem (sdk : SdkRedeem) : BridgeRedeemResult :=
  if sdk.deserializes = false then .error .deserialize
  else if sdk.isExecuted = some true then .noop .alreadyExecuted
  else if sdk.ensuresRecipientAta = false then .error .ensureRecipientAta
  else submitSteps sdk.steps none

/-- The transaction of a release has a signature, or its submission throws. -/
def executeBridgePlan (plan : BridgePlan) (sdk : SdkRedeem) (sent : Option String) :
    BridgeRedeemResult :=
  match plan with
  | .noop reason => .noop reason
  | .redeemAndRelease => executeSdkBundledRedeem sdk
  | .releaseOnly _ =>
    match sent with
    | some sig => .submitted sig .releaseOnly
    | none => .error .sendAndConfirm

/-! ## One scan -/

/-- What one VAA meets when a worker gets to it. -/
structure RedeemWorld where
  getAccountInfo : Pubkey → AccountRead
  now : ℤ
  sdk : SdkRedeem
  sent : Option String

/-- `planAndSubmit`, behind the `catch` of the scan. -/
def planAndSubmit (rt : RelayerRuntime) (onCurve : Pubkey → Bool) (target : BridgeRedeemTarget)
    (vaaBytes : Bytes) (prefetched : Option (Option Bytes)) (world : RedeemWorld) :
    BridgeRedeemResult :=
  match planBridgeRedeem rt onCurve target vaaBytes prefetched world.getAccountInfo world.now with
  | .error err => .error err
  | .ok plan => executeBridgePlan plan world.sdk world.sent

/-- The batched read of a VAA's inbox item, if the batch was read and the VAA has one. -/
def prefetchInbox (rt : RelayerRuntime) (target : BridgeRedeemTarget)
    (batch : Option (Pubkey → Option Bytes)) (item : WormholescanVaa) : Option (Option Bytes) :=
  match batch, resolveNttVaa rt item.vaa target.destNttManagerProgramId
      (some target.destWhTransceiverProgramId) with
  | some infoByKey, .ok resolved => some (infoByKey resolved.nttInboxItem)
  | _, _ => none

/-- How a pool works through its items: it picks up a number of them before the abort signal is
seen, and finishes these in some order. -/
structure PoolSchedule (α : Type) where
  picked : ℕ
  order : List α → List α
  order_perm : ∀ items, (order items).Perm items

/-- A worker pool whose workers change a state when they finish. -/
def runBounded {α σ : Type} (schedule : PoolSchedule α) (worker : σ → α → σ) (items : List α)
    (s : σ) : σ :=
  (schedule.order (items.take schedule.picked)).foldl worker s

/-- The scan's effect on the watermarks. -/
def scanAndRedeemBridge (rt : RelayerRuntime) (onCurve : Pubkey → Bool)
    (target : BridgeRedeemTarget) (maxPages : ℕ) (source : PageSource)
    (batch : Option (Pubkey → Option Bytes)) (schedule : PoolSchedule WormholescanVaa)
    (world : WormholescanVaa → RedeemWorld) (watermarks : WatermarkStore) : WatermarkStore :=
  let pages := harvestVaaPages watermarks target.sourceChainId target.sourceEmitterHex maxPages
    false source
  let worker (watermarks : WatermarkStore) (item : WormholescanVaa) : WatermarkStore :=
    let result := planAndSubmit rt onCurve target item.vaa (prefetchInbox rt target batch item)
      (world item)
    if result.isError then watermarks
    else recordSeen watermarks target.sourceChainId target.sourceEmitterHex item.sequence
  runBounded schedule worker pages.flatten watermarks

end FogoYield.Cranker
