import Mathlib.Data.List.Infix

/-! # The wake flag

`packages/cranker/src/utils/wake-flag.ts`, and the loop of `packages/cranker/src/daemon.ts` as far
as it waits for the flag. A promise is known by the number of the `wait` call that made it. -/

namespace FogoYield.Cranker

structure WakeFlag where
  flagged : Bool
  /-- The promise that `resolveCurrent` resolves. -/
  resolveCurrent : Option ℕ
  deriving DecidableEq

namespace WakeFlag

def new : WakeFlag := ⟨false, none⟩

/-- The flag behind a `signal`, and the promise that is resolved. -/
def signal (flag : WakeFlag) : WakeFlag × Option ℕ :=
  ({ flagged := true, resolveCurrent := none }, flag.resolveCurrent)

/-- The flag behind the `wait` that returns the given promise, and whether that is resolved at
once. -/
def wait (flag : WakeFlag) (promise : ℕ) : WakeFlag × Bool :=
  if flag.flagged then ({ flag with flagged := false }, true)
  else ({ flag with resolveCurrent := some promise }, false)

end WakeFlag

/-! ## Calls -/

inductive WakeCall where
  | signal
  | wait
  deriving DecidableEq

/-- A flag with the calls made so far. -/
structure WakeCalls where
  flag : WakeFlag
  /-- How often `wait` was called. -/
  waits : ℕ
  /-- The promises that are resolved, oldest first. -/
  resolved : List ℕ
  deriving DecidableEq

namespace WakeCalls

def new : WakeCalls := ⟨.new, 0, []⟩

def call (calls : WakeCalls) : WakeCall → WakeCalls
  | .signal =>
    { calls with
      flag := calls.flag.signal.1
      resolved := calls.resolved ++ calls.flag.signal.2.toList }
  | .wait =>
    { flag := (calls.flag.wait calls.waits).1
      waits := calls.waits + 1
      resolved :=
        if (calls.flag.wait calls.waits).2 then calls.resolved ++ [calls.waits]
        else calls.resolved }

def callAll (history : List WakeCall) : WakeCalls := history.foldl call new

end WakeCalls

/-! ## The daemon's loop -/

inductive DaemonPhase where
  | scanning
  /-- In the race of the timer, the flag's promise and the abort. -/
  | racing (promise : ℕ)
  | stopped
  deriving DecidableEq

structure Daemon where
  calls : WakeCalls
  phase : DaemonPhase
  aborted : Bool
  deriving DecidableEq

inductive RaceWinner where
  | timer
  | wakeup
  | abort
  deriving DecidableEq

inductive DaemonEvent where
  /-- A scanner's call. -/
  | signal
  | abort
  /-- The scan is over, and the daemon arms its race. -/
  | arm
  | raceOver (winner : RaceWinner)
  /-- The loop test finds the abort. -/
  | leave
  deriving DecidableEq

namespace Daemon

def start : Daemon := ⟨.new, .scanning, false⟩

/-- The winner of a race has settled. -/
def Settled (daemon : Daemon) (promise : ℕ) : RaceWinner → Prop
  | .timer => True
  | .wakeup => promise ∈ daemon.calls.resolved
  | .abort => daemon.aborted = true

instance (daemon : Daemon) (promise : ℕ) : DecidablePred (daemon.Settled promise) := fun winner =>
  match winner with
  | .timer => inferInstanceAs (Decidable True)
  | .wakeup => inferInstanceAs (Decidable (promise ∈ daemon.calls.resolved))
  | .abort => inferInstanceAs (Decidable (daemon.aborted = true))

def step (daemon : Daemon) : DaemonEvent → Option Daemon
  | .signal => some { daemon with calls := daemon.calls.call .signal }
  | .abort => some { daemon with aborted := true }
  | .arm =>
    if daemon.phase = .scanning ∧ daemon.aborted = false then
      some { daemon with
        calls := daemon.calls.call .wait
        phase := .racing daemon.calls.waits }
    else none
  | .raceOver winner =>
    match daemon.phase with
    | .racing promise =>
      if daemon.Settled promise winner then some { daemon with phase := .scanning } else none
    | _ => none
  | .leave =>
    if daemon.phase = .scanning ∧ daemon.aborted = true then
      some { daemon with phase := .stopped }
    else none

/-- The promise that the daemon awaits and that is not resolved. -/
def armed (daemon : Daemon) : Option ℕ :=
  match daemon.phase with
  | .racing promise => if promise ∈ daemon.calls.resolved then none else some promise
  | _ => none

end Daemon

end FogoYield.Cranker
