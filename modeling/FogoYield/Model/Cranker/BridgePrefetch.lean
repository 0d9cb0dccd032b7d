import FogoYield.Model.Cranker.Bridge
import FogoYield.Model.Sdk.Accounts

/-! # The batched read of a bridge scan

How `scanAndRedeemBridge` of `packages/cranker/src/bridge/scan.ts` puts the prefetched inbox items
together with the VAAs. -/

namespace FogoYield.Cranker

open FogoYield.Library FogoYield.Solana FogoYield.Sdk
open FogoYield.Relayer (RelayerRuntime)

/-- The inbox item of a VAA that can be parsed. -/
def inboxKey (rt : RelayerRuntime) (target : BridgeRedeemTarget) (it : WormholescanVaa) :
    Option Pubkey :=
  match resolveNttVaa rt it.vaa target.destNttManagerProgramId
      (some target.destWhTransceiverProgramId) with
  | .ok resolved => some resolved.nttInboxItem
  | .error _ => none

def inboxKeys (rt : RelayerRuntime) (target : BridgeRedeemTarget)
    (vaas : List WormholescanVaa) : List (Option Pubkey) := vaas.map (inboxKey rt target)

/-- `infoByKey`: a later entry of a key replaces an earlier one. -/
def infoByKey (toBase58 : Pubkey → String) (toFetch : List Pubkey)
    (infos : List (Option Bytes)) : String → Option (Option Bytes) :=
  toFetch.zipIdx.foldl (fun m (k, i) => Function.update m (toBase58 k) (some (infos[i]?.getD none)))
    (fun _ => none)

/-- The VAAs with what was prefetched for them. The scan passes no `chunkSize`; `inTime` tells
whether the batch is read before the timeout. -/
def bridgeWork (rt : RelayerRuntime) (toBase58 : Pubkey → String) (target : BridgeRedeemTarget)
    (getMultipleAccountsInfo : List Pubkey → Option (List (Option Bytes)))
    (chunkSize : Option ℤ) (inTime : Bool) (vaas : List WormholescanVaa) :
    List (WormholescanVaa × Option (Option Bytes)) :=
  let keys := inboxKeys rt target vaas
  let toFetch := keys.filterMap id
  let infos :=
    if toFetch.length > 0 ∧ inTime = true then
      getMultipleAccountsChunked getMultipleAccountsInfo toFetch chunkSize
    else none
  (vaas.zip keys).map (fun (it, key) =>
    match infos, key with
    | some infos, some key =>
      (it, some ((infoByKey toBase58 toFetch infos (toBase58 key)).getD none))
    | _, _ => (it, none))

end FogoYield.Cranker
