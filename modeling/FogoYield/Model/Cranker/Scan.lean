import FogoYield.Model.Cranker.Enumerate
import FogoYield.Model.Cranker.FlowState

/-! # The flow scanner

`scanAndAdvance` of `packages/cranker/src/relayer/scan.ts` over `runBounded` of
`utils/concurrency.ts`, for any number of scans that share a tracker. Between two `await`s nothing
else runs, so a step is what happens from one of them to the next. -/

namespace FogoYield.Cranker

open FogoYield.Solana

/-! ## Handlers -/

/-- `AdvanceFns`. -/
inductive Handler where
  | receive
  | swap
  | send
  deriving DecidableEq

/-- A status the cranker does not drive has no handler. -/
def pickAdvanceForStatus : FlowStatus → Option Handler
  | .pending => some .receive
  | .received => some .swap
  | .swapped => some .send
  | _ => none

/-- `AdvanceResult`, with the class of an error. -/
inductive AdvanceResult where
  | noop
  | advanced (toStatus : FlowStatus)
  | error (errorClass : String)
  deriving DecidableEq

/-- The promise of a handler: its result, or a throw against its contract. -/
inductive HandlerOutcome where
  | returns (result : AdvanceResult)
  | throws
  deriving DecidableEq

/-! ## Tasks -/

/-- A task that holds its slot and waits for a worker. -/
structure Task where
  flowKey : String
  status : FlowStatus
  dispatch : Handler
  /-- When the slot was taken. -/
  takenAt : ℤ
  deriving DecidableEq

/-- The loop over the enumerated flows, with the time at which each asks for its slot. -/
def buildTasks (toBase58 : Pubkey → String) (flowState : FlowStateTracker) :
    List (ScannedFlow × ℤ) → List Task × FlowStateTracker
  | [] => ([], flowState)
  | (flow, now) :: flows =>
    match pickAdvanceForStatus flow.status with
    | none => buildTasks toBase58 flowState flows
    | some dispatch =>
      let flowKey := toBase58 flow.pubkey
      let (decision, flowState) := flowState.beginIfReady flowKey now
      let (tasks, flowState') := buildTasks toBase58 flowState flows
      if decision.allowed then (⟨flowKey, flow.status, dispatch, now⟩ :: tasks, flowState')
      else (tasks, flowState')

/-- A task that awaits a handler. -/
structure Chain where
  flowKey : String
  takenAt : ℤ
  /-- When a worker took the task and called the first handler. -/
  dispatchedAt : ℤ
  currentStatus : FlowStatus
  /-- The handler that is awaited. -/
  dispatch : Handler
  /-- The handlers called so far, this one included. -/
  calls : List Handler
  deriving DecidableEq

def Task.start (task : Task) (now : ℤ) : Chain :=
  { flowKey := task.flowKey
    takenAt := task.takenAt
    dispatchedAt := now
    currentStatus := task.status
    dispatch := task.dispatch
    calls := [task.dispatch] }

/-- The loop after a result: the next handler, or none if the chain is over. -/
def Chain.next (chain : Chain) (aborted : Bool) (result : AdvanceResult) : Option Chain :=
  match result with
  | .advanced toStatus =>
    match pickAdvanceForStatus toStatus with
    | none => none
    | some nextDispatch =>
      if aborted then none
      else some { chain with
        currentStatus := toStatus
        dispatch := nextDispatch
        calls := chain.calls ++ [nextDispatch] }
  | _ => none

/-- The slot is released with the last result. -/
def releaseSlot (flowState : FlowStateTracker) (flowKey : String) (lastResult : AdvanceResult)
    (now : ℤ) : FlowStateTracker :=
  match lastResult with
  | .error errorClass => (flowState.recordError flowKey errorClass now).2
  | _ => flowState.recordSuccess flowKey

/-! ## Scans -/

/-- A scan behind its enumeration. -/
structure Scan where
  workers : ℕ
  aborted : Bool
  queue : List Task
  active : List Chain
  returned : Bool
  /-- The flows whose slots the scan has taken. -/
  taken : List String
  /-- The flows whose slots its tasks have released. -/
  released : List String
  /-- A handler threw. -/
  threw : Bool

structure ScanWorld where
  flowState : FlowStateTracker
  scans : List Scan

inductive ScanEvent where
  /-- The tasks of a scan are built, in one go. -/
  | build (flows : List (ScannedFlow × ℤ)) (maxConcurrentAdvances : ℕ)
  /-- A free worker of scan `i` takes its next task and calls the first handler. -/
  | dispatch (i : ℕ) (now : ℤ)
  /-- The handler that chain `j` of scan `i` awaits settles. -/
  | settle (i j : ℕ) (outcome : HandlerOutcome) (now : ℤ)
  | abort (i : ℕ)
  /-- Every worker of scan `i` has left. -/
  | finish (i : ℕ)
  | clearBackoff

namespace ScanWorld

def setScan (w : ScanWorld) (i : ℕ) (scan : Scan) : ScanWorld :=
  { w with scans := w.scans.set i scan }

def dispatch (w : ScanWorld) (i : ℕ) (now : ℤ) : Option ScanWorld :=
  match w.scans[i]? with
  | none => none
  | some scan =>
    match scan.queue with
    | [] => none
    | task :: queue =>
      if scan.aborted = false ∧ scan.active.length < scan.workers then
        some (w.setScan i { scan with queue := queue, active := task.start now :: scan.active })
      else none

def settle (w : ScanWorld) (i j : ℕ) (outcome : HandlerOutcome) (now : ℤ) : Option ScanWorld :=
  match w.scans[i]? with
  | none => none
  | some scan =>
    match scan.active[j]? with
    | none => none
    | some chain =>
      match outcome with
      | .throws =>
        some (w.setScan i { scan with active := scan.active.eraseIdx j, threw := true })
      | .returns result =>
        match chain.next scan.aborted result with
        | some next => some (w.setScan i { scan with active := scan.active.set j next })
        | none =>
          let flowState := releaseSlot w.flowState chain.flowKey result now
          some ({ w with flowState := flowState }.setScan i
            { scan with
              active := scan.active.eraseIdx j
              released := scan.released ++ [chain.flowKey] })

/-- Workers leave when there is no task left, or when they see the scan aborted. -/
def finish (w : ScanWorld) (i : ℕ) : Option ScanWorld :=
  match w.scans[i]? with
  | none => none
  | some scan =>
    if scan.returned = false ∧ scan.active = [] ∧ (scan.queue = [] ∨ scan.aborted = true) then
      some (w.setScan i { scan with queue := [], returned := true })
    else none

def abort (w : ScanWorld) (i : ℕ) : Option ScanWorld :=
  match w.scans[i]? with
  | none => none
  | some scan =>
    if scan.returned = false then some (w.setScan i { scan with aborted := true }) else none

def step (toBase58 : Pubkey → String) (w : ScanWorld) : ScanEvent → Option ScanWorld
  | .build flows maxConcurrentAdvances =>
    let (tasks, flowState) := buildTasks toBase58 w.flowState flows
    some
      { flowState := flowState
        scans := w.scans ++
          [{ workers := max 1 maxConcurrentAdvances
             aborted := false
             queue := tasks
             active := []
             returned := false
             taken := tasks.map Task.flowKey
             released := []
             threw := false }] }
  | .dispatch i now => w.dispatch i now
  | .settle i j outcome now => w.settle i j outcome now
  | .abort i => w.abort i
  | .finish i => w.finish i
  | .clearBackoff => some { w with flowState := w.flowState.clearBackoff.2 }

end ScanWorld

end FogoYield.Cranker
