import Mathlib.Algebra.Group.Nat.Defs
import FogoYield.Model.Cranker.BoundedMap

/-! # The processing state of flows

`packages/cranker/src/state/flow-state.ts`: what the cranker is doing about a flow, and when it may
try again. Points of time are integers, in milliseconds. -/

namespace FogoYield.Cranker

inductive FlowProcState where
  | inFlight (startedAt : ℤ) (attempts : ℕ)
  | cooldown (until' : ℤ) (attempts : ℕ)
  | poisoned (firstSeenAt : ℤ) (attempts : ℕ) (lastErrorClass : String)
  deriving DecidableEq

def FlowProcState.attempts : FlowProcState → ℕ
  | .inFlight _ attempts => attempts
  | .cooldown _ attempts => attempts
  | .poisoned _ attempts _ => attempts

def cooldownBaseMs : ℕ := 30000
def cooldownMaxMs : ℕ := 60 * 60000
def poisonThreshold : ℕ := 8
def inFlightTimeoutMs : ℕ := 5 * 60000

/-- What the constructor is given; an option left out has its default. -/
structure FlowStateTrackerOptions where
  cooldownBaseMs : Option ℕ
  cooldownMaxMs : Option ℕ
  poisonThreshold : Option ℕ
  inFlightTimeoutMs : Option ℕ
  maxEntries : Option ℕ

/-- `Required<FlowStateTrackerOptions>`, the bound of the map aside. -/
structure TrackerOptions where
  cooldownBaseMs : ℕ
  cooldownMaxMs : ℕ
  poisonThreshold : ℕ
  inFlightTimeoutMs : ℕ

structure FlowStateTracker where
  states : BoundedMap String FlowProcState
  opts : TrackerOptions

namespace FlowStateTracker

/-- The constructor, which throws if the map has no room. -/
def new (opts : FlowStateTrackerOptions) : Option FlowStateTracker :=
  (BoundedMap.new (opts.maxEntries.getD 10000)).map fun states =>
    { states := states
      opts :=
        { cooldownBaseMs := opts.cooldownBaseMs.getD Cranker.cooldownBaseMs
          cooldownMaxMs := opts.cooldownMaxMs.getD Cranker.cooldownMaxMs
          poisonThreshold := opts.poisonThreshold.getD Cranker.poisonThreshold
          inFlightTimeoutMs := opts.inFlightTimeoutMs.getD Cranker.inFlightTimeoutMs } }

structure BeginDecision where
  allowed : Bool
  reason : Option String
  deriving DecidableEq

def inspect (t : FlowStateTracker) (flow : String) : Option FlowProcState := t.states.get flow

def setState (t : FlowStateTracker) (flow : String) (state : FlowProcState) : FlowStateTracker :=
  { t with states := t.states.set flow state }

/-- Try to take the dispatch slot. -/
def beginIfReady (t : FlowStateTracker) (flow : String) (now : ℤ) :
    BeginDecision × FlowStateTracker :=
  match t.inspect flow with
  | none => (⟨true, none⟩, t.setState flow (.inFlight now 0))
  | some (.inFlight startedAt attempts) =>
    if now - startedAt < t.opts.inFlightTimeoutMs then (⟨false, some "inFlight"⟩, t)
    else (⟨true, none⟩, t.setState flow (.inFlight now attempts))
  | some (.cooldown until' attempts) =>
    if now < until' then (⟨false, some "cooldown"⟩, t)
    else (⟨true, none⟩, t.setState flow (.inFlight now attempts))
  | some (.poisoned _ _ _) => (⟨false, some "poisoned"⟩, t)

def recordSuccess (t : FlowStateTracker) (flow : String) : FlowStateTracker :=
  { t with states := t.states.delete flow }

def recordError (t : FlowStateTracker) (flow errorClass : String) (now : ℤ) :
    FlowProcState × FlowStateTracker :=
  let prev := t.inspect flow
  let prevAttempts := (prev.map FlowProcState.attempts).getD 0
  let attempts := prevAttempts + 1
  if attempts ≥ t.opts.poisonThreshold then
    let firstSeenAt := match prev with
      | some (.poisoned firstSeenAt _ _) => firstSeenAt
      | _ => now
    let next := .poisoned firstSeenAt attempts errorClass
    (next, t.setState flow next)
  else
    let backoff := min (t.opts.cooldownBaseMs * 2 ^ (attempts - 1)) t.opts.cooldownMaxMs
    let next := .cooldown (now + backoff) attempts
    (next, t.setState flow next)

/-- The flows whose state is of a kind, in the order of the map. -/
def flowsOf (t : FlowStateTracker) (kind : FlowProcState → Bool) : List String :=
  (t.states.entries.filter (fun e => kind e.2)).map Prod.fst

def isPoisoned : FlowProcState → Bool
  | .poisoned _ _ _ => true
  | _ => false

def isCooldown : FlowProcState → Bool
  | .cooldown _ _ => true
  | _ => false

/-- The operator's reset: every flow that is backing off is idle again. -/
def clearBackoff (t : FlowStateTracker) : (List String × List String) × FlowStateTracker :=
  let poisoned := t.flowsOf isPoisoned
  let cooldown := t.flowsOf isCooldown
  ((poisoned, cooldown),
    (poisoned ++ cooldown).foldl (fun t flow => { t with states := t.states.delete flow }) t)

end FlowStateTracker

/-! ## Calls -/

/-- A call of one of the methods that change the tracker. -/
inductive TrackerCall where
  | beginIfReady (flow : String) (now : ℤ)
  | recordSuccess (flow : String)
  | recordError (flow errorClass : String) (now : ℤ)
  | clearBackoff

def FlowStateTracker.call (t : FlowStateTracker) : TrackerCall → FlowStateTracker
  | .beginIfReady flow now => (t.beginIfReady flow now).2
  | .recordSuccess flow => t.recordSuccess flow
  | .recordError flow errorClass now => (t.recordError flow errorClass now).2
  | .clearBackoff => t.clearBackoff.2

/-- A sequence of calls. -/
def FlowStateTracker.calls (t : FlowStateTracker) (calls : List TrackerCall) : FlowStateTracker :=
  calls.foldl FlowStateTracker.call t

end FogoYield.Cranker
