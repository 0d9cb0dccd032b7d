import FogoYield.Model.Cranker.BoundedMap
import FogoYield.Model.Cranker.Enumerate
import FogoYield.Model.Relayer.Program

/-! # Scans beside the chain

The enumerator of `packages/cranker/src/relayer/enumerate.ts` asks the chain up to three times per
VAA, and anything can happen on the chain between two of its reads. Any number of scans are under
way at a time; they share the memo of closed flows. -/

namespace FogoYield.Cranker

open FogoYield.Library FogoYield.Solana FogoYield.Sdk
open FogoYield.Relayer (RelayerRuntime RelayerAccounts RelayerWorld RelayerError Direction
  Env Action pairConfigAt flowAt)

/-! ## What a read returns -/

/-- The 32 bytes of a key. -/
def keyData (k : Pubkey) : Bytes := (k.bytes ++ List.replicate 32 0).take 32

/-- `COption<Pubkey>`. -/
def optionKeyData : Option Pubkey → Bytes
  | none => List.replicate 36 0
  | some k => [1, 0, 0, 0] ++ keyData k

/-- The data of an SPL token account that is initialized and does not hold wrapped lamports. -/
def tokenAccountData (t : TokenAccount) : Bytes :=
  keyData t.mint ++ keyData t.owner ++ leBytes 8 t.amount.toNat ++ optionKeyData t.delegate ++
    [1] ++ List.replicate 12 0 ++ leBytes 8 t.delegatedAmount.toNat ++
    optionKeyData t.closeAuthority

/-- `connection.getAccountInfo`. The accounts it is asked for hold no data of the relayer. -/
def getAccountInfo (a : RelayerAccounts) (fails : Bool) (k : Pubkey) : AccountRead :=
  if fails then .failed
  else
    match (a k).data with
    | .empty => if (a k).lamports = 0 then .absent else .found []
    | .token t => .found (tokenAccountData t)
    | _ => .found (a k).bytes

/-- `describeStatus`. -/
def describeStatus : Relayer.FlowStatus → FlowStatus
  | .received => .received
  | .swapped => .swapped

def VaaLeg.direction : VaaLeg → Direction
  | .deposit => .deposit
  | .withdraw => .withdraw

/-- `fetchInflightFlow` and `fetchOutflightFlow`. Data that is no flow is an error like any
other. -/
def fetchFlow (rt : RelayerRuntime) (configPda : Pubkey) (a : RelayerAccounts) (fails : Bool)
    (leg : VaaLeg) (nttInboxItem : Pubkey) : FetchOutcome :=
  let pda := (findFlowPda rt leg.direction configPda nttInboxItem Relayer.programId).1
  if fails then .rpcError
  else if (a pda).data.isEmpty = true then .missing
  else
    match flowAt a pda with
    | some flow => .resolved (describeStatus flow.status)
    | none => .rpcError

/-- What the reads of a VAA return at one moment. -/
def readsAt (rt : RelayerRuntime) (configPda : Pubkey) (a : RelayerAccounts) (fails : Bool)
    (leg : VaaLeg) : VaaReads :=
  ⟨fetchFlow rt configPda a fails leg, getAccountInfo a fails, getAccountInfo a fails⟩

/-! ## One scan, read by read -/

/-- What a scan waits for. -/
inductive ScanPhase where
  | flow
  | inboxItem
  | recipientAta (inbox : NttInboxItem)
  | done (resolution : VaaResolution)
  deriving DecidableEq

/-- A `scanWormholescanVaa` under way: the VAA resolves and was not known to be closed. -/
structure VaaScan where
  leg : VaaLeg
  item : WormholescanVaa
  nttProgramId : Pubkey
  recvMint : Pubkey
  nttInboxItem : Pubkey
  phase : ScanPhase

namespace VaaScan

def scanned (scan : VaaScan) (status : FlowStatus) : ScannedFlow :=
  ⟨scan.nttInboxItem, status, scan.leg, scan.item.txHash.getD "", scan.item.vaa⟩

/-- Up to the first read: a scan, or what is returned at once. -/
def begin (rt : RelayerRuntime) (leg : VaaLeg) (nttProgramId recvMint : Pubkey)
    (terminalCache : Pubkey → Bool) (item : WormholescanVaa) : Except VaaResolution VaaScan :=
  match resolveNttVaa rt item.vaa nttProgramId none with
  | .error _ => .error ⟨item.sequence, none, true⟩
  | .ok resolved =>
    let scan : VaaScan := ⟨leg, item, nttProgramId, recvMint, resolved.nttInboxItem, .flow⟩
    if terminalCache resolved.nttInboxItem then
      .error ⟨item.sequence, some (scan.scanned .closed), true⟩
    else .ok scan

def onFlow (scan : VaaScan) (outcome : FetchOutcome) : ScanPhase :=
  match outcome with
  | .rpcError => .done ⟨scan.item.sequence, none, false⟩
  | .undecodable => .done ⟨scan.item.sequence, some (scan.scanned .undecodable), true⟩
  | .missing => .inboxItem
  | .resolved status => .done ⟨scan.item.sequence, some (scan.scanned status), true⟩

def onInboxItem (scan : VaaScan) (info : AccountRead) : ScanPhase :=
  let pending : ScanPhase := .done ⟨scan.item.sequence, some (scan.scanned .pending), true⟩
  match info with
  | .found data =>
    match decodeNttInboxItem data with
    | some inbox => if inbox.releaseStatus ≠ .released then pending else .recipientAta inbox
    | none => pending
  | _ => pending

def onRecipientAta (scan : VaaScan) (inbox : NttInboxItem) (ataInfo : AccountRead) : ScanPhase :=
  let status : FlowStatus :=
    if ataInfo = .failed then .pending
    else if inbox.amount.toNat ≤ parkedAmount ataInfo then .pending
    else .closed
  .done ⟨scan.item.sequence, some (scan.scanned status), true⟩

/-- The next read returns. -/
def advance (rt : RelayerRuntime) (reads : VaaReads) (scan : VaaScan) : VaaScan :=
  match scan.phase with
  | .flow => { scan with phase := scan.onFlow (reads.flow scan.nttInboxItem) }
  | .inboxItem => { scan with phase := scan.onInboxItem (reads.inboxItem scan.nttInboxItem) }
  | .recipientAta inbox =>
    let recipientAta := associatedTokenAddress rt scan.recvMint inbox.recipientAddress
    { scan with phase := scan.onRecipientAta inbox (reads.recipientAta recipientAta) }
  | .done _ => scan

end VaaScan

/-! ## The enumerator -/

def terminalCacheMax : ℕ := 50000

/-- The enumerator and the chain it reads. -/
structure Enumerator where
  world : RelayerWorld
  terminalCache : BoundedMap Pubkey Unit
  scans : List VaaScan

inductive EnumeratorEvent where
  /-- A step of the chain, whoever takes it. -/
  | chain (act : Action)
  /-- The scan of a VAA begins. -/
  | start (leg : VaaLeg) (item : WormholescanVaa)
  /-- The next read of the scan at `i` returns. -/
  | read (i : ℕ) (fails : Bool)
  /-- The scan at `i` returns. -/
  | finish (i : ℕ)

inductive EnumeratorFault where
  | chainFailed (err : ProgramError RelayerError)
  | noConfig
  | noScan
  | notDone

/-- A flow that is found to be closed is remembered. -/
def memoize (scan : VaaScan) (resolution : VaaResolution)
    (terminalCache : BoundedMap Pubkey Unit) : BoundedMap Pubkey Unit :=
  match resolution.flow with
  | some flow =>
    if flow.status = .closed then terminalCache.set scan.nttInboxItem () else terminalCache
  | none => terminalCache

namespace Enumerator

/-- `terminalCache.has`. -/
def cached (s : Enumerator) (k : Pubkey) : Bool := (s.terminalCache.get k).isSome

/-- The scan that starts now, under the config the harvest has fetched. -/
def begin (rt : RelayerRuntime) (configPda : Pubkey) (s : Enumerator) (leg : VaaLeg)
    (item : WormholescanVaa) : Option (Except VaaResolution VaaScan) :=
  (pairConfigAt s.world.accounts configPda).map fun config =>
    VaaScan.begin rt leg (config.receiveNttProgram leg.direction)
      (config.receiveMint leg.direction) s.cached item

def read (rt : RelayerRuntime) (configPda : Pubkey) (s : Enumerator) (i : ℕ) (fails : Bool)
    (scan : VaaScan) : Enumerator :=
  let reads := readsAt rt configPda s.world.accounts fails scan.leg
  { s with scans := s.scans.set i (scan.advance rt reads) }

def finish (s : Enumerator) (i : ℕ) (scan : VaaScan) (resolution : VaaResolution) : Enumerator :=
  { s with
    scans := s.scans.eraseIdx i
    terminalCache := memoize scan resolution s.terminalCache }

def apply (rt : RelayerRuntime) (configPda : Pubkey) :
    EnumeratorEvent → Enumerator → Except EnumeratorFault Enumerator
  | .chain act, s =>
    match act.apply rt s.world with
    | .ok world => .ok { s with world := world }
    | .error err => .error (.chainFailed err)
  | .start leg item, s =>
    match s.begin rt configPda leg item with
    | some (.ok scan) => .ok { s with scans := s.scans ++ [scan] }
    | some (.error _) => .ok s
    | none => .error .noConfig
  | .read i fails, s =>
    match s.scans[i]? with
    | some scan => .ok (s.read rt configPda i fails scan)
    | none => .error .noScan
  | .finish i, s =>
    match s.scans[i]? with
    | some scan =>
      match scan.phase with
      | .done resolution => .ok (s.finish i scan resolution)
      | _ => .error .notDone
    | none => .error .noScan

/-- What a scan returns in this event, if one does. -/
def returns (rt : RelayerRuntime) (configPda : Pubkey) (s : Enumerator) :
    EnumeratorEvent → Option VaaResolution
  | .start leg item =>
    match s.begin rt configPda leg item with
    | some (.error resolution) => some resolution
    | _ => none
  | .finish i =>
    match s.scans[i]? with
    | some scan =>
      match scan.phase with
      | .done resolution => some resolution
      | _ => none
    | none => none
  | _ => none

/-- One step; those of the chain are steps of the deployed system. -/
def Step (env : Env) (configPda : Pubkey) (s : Enumerator) (event : EnumeratorEvent)
    (s' : Enumerator) : Prop :=
  (∀ act, event = .chain act → act.Trusted env) ∧ apply env.runtime configPda event s = .ok s'

end Enumerator

/-- The enumerator as `makeEnumerator` leaves it. -/
def makeEnumerator (world : RelayerWorld) : Enumerator where
  world := world
  terminalCache := ⟨terminalCacheMax, [], by decide, List.nodup_nil⟩
  scans := []

abbrev EnumeratorRun (env : Env) (configPda : Pubkey) := Run (Enumerator.Step env configPda)

abbrev EnumeratorTransition := Transition Enumerator EnumeratorEvent

end FogoYield.Cranker
