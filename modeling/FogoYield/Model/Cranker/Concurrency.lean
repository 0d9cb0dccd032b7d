import Mathlib.Algebra.Group.Nat.Defs
import Mathlib.Data.Int.Basic
import Mathlib.Data.List.Basic

/-! # The worker pool

`runBounded` of `packages/cranker/src/utils/concurrency.ts`. An async function of the pool runs at
once from its loop test to its next `await`; everything else may happen between two such turns. -/

namespace FogoYield.Cranker

inductive RunBoundedError where
  /-- The `RangeError` of `Array.from`. -/
  | invalidArrayLength
  | abortedMidFlight
  deriving DecidableEq

/-- Where one of the async functions stands. -/
inductive PoolWorker where
  /-- In front of the loop test. -/
  | looping
  /-- In the `await` on the item's promise. -/
  | awaiting (idx : ℕ)
  | returned
  deriving DecidableEq

def PoolWorker.idx : PoolWorker → Option ℕ
  | .awaiting idx => some idx
  | _ => none

/-- One call of `runBounded`. -/
structure Pool (α ε : Type) where
  i : ℕ
  aborted : Bool
  /-- `signal.aborted`, which is never taken back. -/
  signalAborted : Bool
  workers : List PoolWorker
  /-- The calls of `worker`, oldest first. -/
  started : List (α × ℕ)
  /-- The indices whose promise has settled, oldest first. -/
  settled : List ℕ
  /-- What `onWorkerThrow` was called with, oldest first. -/
  thrown : List ε
  /-- How the call itself has settled. -/
  outcome : Option (Except RunBoundedError Unit)

inductive PoolEvent (ε : Type) where
  /-- A loop test, and what follows it up to the next `await` or the end. -/
  | turn (w : ℕ)
  /-- The promise of the item is fulfilled or rejected. -/
  | settle (w : ℕ) (result : Except ε Unit)
  | abort
  /-- `Promise.all` resolves. -/
  | finish

namespace Pool

variable {α ε : Type}

/-- The call as far as its `await`. An array has room for fewer than `2 ^ 32` entries. -/
def call (concurrency : ℤ) : Pool α ε :=
  let length := (max 1 concurrency).toNat
  { i := 0
    aborted := false
    signalAborted := false
    workers := if length < 2 ^ 32 then List.replicate length .looping else []
    started := []
    settled := []
    thrown := []
    outcome := if length < 2 ^ 32 then none else some (.error .invalidArrayLength) }

/-- The turn of a worker in front of its loop test. -/
def turn (items : List α) (s : Pool α ε) (w : ℕ) : Pool α ε :=
  if h : s.i < items.length then
    if s.signalAborted then
      { s with aborted := true, workers := s.workers.set w .returned }
    else
      { s with
        i := s.i + 1
        workers := s.workers.set w (.awaiting s.i)
        started := s.started ++ [(items[s.i], s.i)] }
  else { s with workers := s.workers.set w .returned }

/-- The end of a worker's `await`, with the `catch` of a rejection. -/
def settle (s : Pool α ε) (w idx : ℕ) (result : Except ε Unit) : Pool α ε :=
  { s with
    workers := s.workers.set w .looping
    settled := s.settled ++ [idx]
    thrown := s.thrown ++ (match result with | .error err => [err] | .ok () => []) }

/-- What the call comes to once all its workers have returned. -/
def verdict (s : Pool α ε) (throwOnAbort : Bool) : Except RunBoundedError Unit :=
  if s.aborted && throwOnAbort then .error .abortedMidFlight else .ok ()

/-- The state behind an event, where the event can happen. -/
def step (items : List α) (throwOnAbort : Bool) (s : Pool α ε) :
    PoolEvent ε → Option (Pool α ε)
  | .turn w => if s.workers[w]? = some .looping then some (s.turn items w) else none
  | .settle w result =>
    match s.workers[w]? with
    | some (.awaiting idx) => some (s.settle w idx result)
    | _ => none
  | .abort => some { s with signalAborted := true }
  | .finish =>
    if s.outcome = none ∧ ∀ worker ∈ s.workers, worker = .returned then
      some { s with outcome := some (s.verdict throwOnAbort) }
    else none

/-- The indices that were started and have not settled. -/
def active (s : Pool α ε) : List ℕ := (s.started.map Prod.snd).filter (· ∉ s.settled)

/-- Every index was started. -/
def AllStarted (items : List α) (s : Pool α ε) : Prop :=
  ∀ idx < items.length, idx ∈ s.started.map Prod.snd

end Pool

end FogoYield.Cranker
