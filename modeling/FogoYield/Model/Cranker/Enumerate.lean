import FogoYield.Model.Cranker.Watermarks
import FogoYield.Model.Sdk.Ntt
import FogoYield.Model.Sdk.NttState
import FogoYield.Model.Sdk.Vaa

/-! # The flow enumerator

`packages/cranker/src/relayer/enumerate.ts`. What the RPC reads return is an input. -/

namespace FogoYield.Cranker

open FogoYield.Library FogoYield.Solana FogoYield.Sdk
open FogoYield.Relayer (RelayerRuntime)

/-! ## One VAA -/

inductive FlowStatus where
  | pending
  | received
  | swapped
  | unknown
  | closed
  | undecodable
  deriving DecidableEq

inductive VaaLeg where
  | deposit
  | withdraw
  deriving DecidableEq

/-- What `fetchInflightFlow` or `fetchOutflightFlow` comes to. -/
inductive FetchOutcome where
  | resolved (status : FlowStatus)
  | missing
  | undecodable
  | rpcError
  deriving DecidableEq

/-- `getAccountInfo`: the data, no account, or a failed call. -/
inductive AccountRead where
  | found (data : Bytes)
  | absent
  | failed
  deriving DecidableEq

structure ScannedFlow where
  pubkey : Pubkey
  status : FlowStatus
  direction : VaaLeg
  fogoTx : String
  vaa : Bytes
  deriving DecidableEq

structure VaaResolution where
  sequence : ℕ
  flow : Option ScannedFlow
  recordable : Bool
  deriving DecidableEq

/-- The reads for one VAA, in their order. -/
structure VaaReads where
  flow : Pubkey → FetchOutcome
  inboxItem : Pubkey → AccountRead
  recipientAta : Pubkey → AccountRead

def readSplTokenAmount (data : Bytes) : Option ℕ :=
  if data.length < 72 then none else some (ofLeBytes (Relayer.slice data 64 8))

/-- Reads the amount of an NTT inbox item, whatever else the account holds. -/
def readNttInboxAmount (data : Bytes) : Option ℕ :=
  if data.length < 18 then none else some (ofLeBytes (Relayer.slice data 10 8))

/-- `parked`: what the recipient's token account holds, zero without one. -/
def parkedAmount : AccountRead → ℕ
  | .found data => (readSplTokenAmount data).getD 0
  | _ => 0

/-- `closed`, or nothing where `Pending` stands. -/
def classifyMissingFlow (rt : RelayerRuntime) (recvMint nttInboxItem : Pubkey)
    (reads : VaaReads) : Option FlowStatus :=
  match reads.inboxItem nttInboxItem with
  | .found data =>
    match decodeNttInboxItem data with
    | some inbox =>
      if inbox.releaseStatus ≠ .released then none
      else
        let recipientAta := associatedTokenAddress rt recvMint inbox.recipientAddress
        let ataInfo := reads.recipientAta recipientAta
        if ataInfo = .failed then none
        else if inbox.amount.toNat ≤ parkedAmount ataInfo then none
        else some .closed
    | none => none
  | _ => none

/-- The scan of one VAA, with the memo of the flows that are known to be closed. -/
def scanWormholescanVaa (rt : RelayerRuntime) (leg : VaaLeg) (nttProgramId recvMint : Pubkey)
    (terminalCache : Pubkey → Bool) (reads : VaaReads) (item : WormholescanVaa) :
    VaaResolution :=
  match resolveNttVaa rt item.vaa nttProgramId none with
  | .error _ => ⟨item.sequence, none, true⟩
  | .ok resolved =>
    let scanned (status : FlowStatus) : ScannedFlow :=
      ⟨resolved.nttInboxItem, status, leg, item.txHash.getD "", item.vaa⟩
    if terminalCache resolved.nttInboxItem then
      ⟨item.sequence, some (scanned .closed), true⟩
    else
      match reads.flow resolved.nttInboxItem with
      | .rpcError => ⟨item.sequence, none, false⟩
      | .undecodable => ⟨item.sequence, some (scanned .undecodable), true⟩
      | .missing =>
        let status := (classifyMissingFlow rt recvMint resolved.nttInboxItem reads).getD .pending
        ⟨item.sequence, some (scanned status), true⟩
      | .resolved status => ⟨item.sequence, some (scanned status), true⟩

/-! ## One harvest -/

structure EnumerateOptions where
  fogoWormholeChainId : ℕ
  pageSize : ℕ
  maxPages : ℕ
  bypassWatermark : Bool

/-- What a harvest leaves: the watermarks, and the flows it found. -/
structure HarvestResult where
  watermarks : WatermarkStore
  flows : List ScannedFlow

/-- The resolutions of a page, one after the other. -/
def recordResolutions (opts : EnumerateOptions) (emitterHex : String) :
    List VaaResolution → HarvestResult → HarvestResult
  | [], out => out
  | r :: rest, out =>
    let watermarks :=
      if r.recordable ∧ ¬ opts.bypassWatermark then
        recordSeen out.watermarks opts.fogoWormholeChainId emitterHex r.sequence
      else out.watermarks
    recordResolutions opts emitterHex rest ⟨watermarks, out.flows ++ r.flow.toList⟩

/-- The pages of a harvest, until the abort signal is seen behind one. -/
def consumePages (opts : EnumerateOptions) (emitterHex : String)
    (resolve : WormholescanVaa → VaaResolution) (abortedAfter : ℕ → Bool) :
    List (List WormholescanVaa) → ℕ → HarvestResult → HarvestResult
  | [], _, out => out
  | items :: pages, page, out =>
    if abortedAfter page then out
    else consumePages opts emitterHex resolve abortedAfter pages (page + 1)
      (recordResolutions opts emitterHex (items.map resolve) out)

/-- `harvest` of one emitter. -/
def harvest (opts : EnumerateOptions) (emitterHex : String) (source : PageSource)
    (resolve : WormholescanVaa → VaaResolution) (abortedAfter : ℕ → Bool)
    (watermarks : WatermarkStore) : HarvestResult :=
  let pages := harvestVaaPages watermarks opts.fogoWormholeChainId emitterHex opts.maxPages
    opts.bypassWatermark source
  consumePages opts emitterHex resolve abortedAfter pages 0 ⟨watermarks, []⟩

end FogoYield.Cranker
