import FogoYield.Model.Relayer.Swap

/-! # Outbound send and timeout refund

`instructions/{send,refund}.rs`. Both lock the flow's amount through NTT, publish the message
and close the flow; they differ in the status they ask for, the age and the token. -/

namespace FogoYield.Relayer

open FogoYield.Library FogoYield.Solana

/-- The accounts of `Send` and of `Refund`, which are the same. -/
structure OutboundAccounts extends FlowAccounts where
  payer : Pubkey
  rentDestination : Pubkey

def OutboundAccounts.load (rt : RelayerRuntime) (ctx : Context) (accs : OutboundAccounts)
    (w : RelayerWorld) : RelayerResult FlowLoaded := do
  loadSigner ctx accs.payer
  let loaded ← accs.toFlowAccounts.load rt w
  constrain (accs.rentDestination = loaded.flow.payer) .constraintAddress
  return loaded

/-- The arguments of the `transfer_lock` that returns a flow's tokens to its recipient. -/
def Flow.transferArgs (f : Flow) : NttTransferArgs where
  amount := f.amount
  recipientChain := fogoWormholeChainId
  recipientAddress := f.recipient.bytes
  shouldQueue := false

/-- `transfer_lock` signed by the authority, then `release_wormhole_outbound` without it. -/
def nttLockAndPublish (rt : RelayerRuntime) (ctx : Context) (nttProgram : Pubkey)
    (transferArgs : NttTransferArgs) (transferLockAccs releaseAccs : List AccountMeta)
    (authority : Pubkey) (bump : UInt8) (w : RelayerWorld) : RelayerResult RelayerWorld := do
  let w ← invokeRelayerSigned rt ctx nttProgram nttTransferLockIx transferArgs.serialize
    transferLockAccs (some authority) bump w
  invokeRelayerSigned rt ctx nttProgram nttReleaseWormholeOutboundIx [boolByte false]
    releaseAccs none bump w

/-- Approve the session authority for the flow's amount on `fromAta`, split the remaining
accounts, lock and publish. -/
def bridgeOut (rt : RelayerRuntime) (ctx : Context) (accs : OutboundAccounts) (loaded : FlowLoaded)
    (nttProgram fromAta : Pubkey) (transferLockAccountCount : UInt8) (w : RelayerWorld) :
    RelayerResult RelayerWorld := do
  let transferArgs := loaded.flow.transferArgs
  let (sessionAuthority, _) :=
    deriveSessionAuthority rt nttProgram accs.relayerAuthority transferArgs
  let bump := loaded.config.relayerAuthorityBump
  let w ← approveNttSessionAuthority rt ctx accs.tokenProgram fromAta accs.relayerAuthority bump
    sessionAuthority transferArgs.amount w
  let split := transferLockAccountCount.toNat
  require (split < ctx.remaining.length) .invalidAccountSplit
  nttLockAndPublish rt ctx nttProgram transferArgs (ctx.remaining.take split)
    (ctx.remaining.drop split) accs.relayerAuthority bump w

def send (rt : RelayerRuntime) (ctx : Context) (accs : OutboundAccounts)
    (transferLockAccountCount : UInt8) (w : RelayerWorld) : RelayerResult RelayerWorld := do
  let loaded ← accs.load rt ctx w
  let flow := loaded.flow
  require (flow.status = .swapped) .flowStatusMismatch
  require (0 < flow.amount) .zeroAmountFlow
  let w ← bridgeOut rt ctx accs loaded (loaded.config.sendNttProgram flow.direction)
    (inOut flow.direction accs.baseAta accs.assetAta).2 transferLockAccountCount w
  let w := w.emit (.sent accs.flow accs.nttInboxItem flow.recipient flow.direction flow.amount)
  return closeAccount accs.flow accs.rentDestination w

def refund (rt : RelayerRuntime) (ctx : Context) (accs : OutboundAccounts)
    (transferLockAccountCount : UInt8) (w : RelayerWorld) : RelayerResult RelayerWorld := do
  let loaded ← accs.load rt ctx w
  let flow := loaded.flow
  require (flow.status = .received) .flowStatusMismatch
  let readySlot ← liftOption (checkedAdd flow.receivedSlot refundTimeoutSlots) .arithmeticOverflow
  require (readySlot ≤ w.clock.slot) .refundTooEarly
  require (0 < flow.amount) .zeroAmountFlow
  let w ← bridgeOut rt ctx accs loaded (loaded.config.receiveNttProgram flow.direction)
    (inOut flow.direction accs.baseAta accs.assetAta).1 transferLockAccountCount w
  let w := w.emit (.refunded accs.flow accs.nttInboxItem flow.recipient flow.direction flow.amount)
  return closeAccount accs.flow accs.rentDestination w

end FogoYield.Relayer
