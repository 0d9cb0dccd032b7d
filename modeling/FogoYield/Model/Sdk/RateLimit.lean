import Mathlib.Data.Rat.Floor

/-! # The rate-limited fetch

`createRateLimitedFetch` of `packages/sdk/src/rpc/connection.ts`. Numbers are rationals, times are in
milliseconds. What happens between two `await`s happens at once; other calls, the clock and the
responses come in between. -/

namespace FogoYield.Sdk

structure RateLimitedFetchOptions where
  maxRps : Option ℚ
  burst : Option ℚ
  maxRetries : Option ℚ
  baseBackoffMs : Option ℚ
  maxBackoffMs : Option ℚ

/-- The constants of the closure. -/
structure RateLimiter where
  maxRps : ℚ
  capacity : ℚ
  maxRetries : ℚ
  baseBackoffMs : ℚ
  maxBackoffMs : ℚ

def createRateLimitedFetch (opts : RateLimitedFetchOptions) : RateLimiter :=
  let maxRps := max (1 / 1000) (opts.maxRps.getD 10)
  { maxRps := maxRps
    capacity := max 1 (opts.burst.getD maxRps)
    maxRetries := opts.maxRetries.getD 5
    baseBackoffMs := opts.baseBackoffMs.getD 500
    maxBackoffMs := opts.maxBackoffMs.getD 15000 }

/-! ## Responses -/

/-- The `Retry-After` header, as `Number` and `Date.parse` take it. -/
inductive RetryAfter where
  | absent
  | seconds (secs : ℚ)
  | date (time : ℚ)
  | unreadable

def parseRetryAfter (now : ℚ) : RetryAfter → Option ℚ
  | .absent => none
  | .seconds secs => some (max 0 (secs * 1000))
  | .date time => some (max 0 (time - now))
  | .unreadable => none

structure FetchResponse where
  status : ℕ
  retryAfter : RetryAfter

/-! ## States -/

/-- The return of the `acquire` call of the given number, with the reading of the clock that it
returned on. -/
structure Permit where
  number : ℕ
  time : ℚ
  deriving DecidableEq

structure Request where
  call : ℕ
  permit : Permit
  time : ℚ
  deriving DecidableEq

/-- Where a call of the fetch stands. -/
inductive FetchPhase where
  /-- In `acquire`, behind the gate of the call before. -/
  | waiting (number : ℕ)
  /-- In the `sleep` of `acquire`. -/
  | sleeping (number : ℕ) (wake : ℚ)
  | granted (permit : Permit)
  | fetching
  /-- In the `sleep` behind a 429. -/
  | backingOff (wake : ℚ)
  | settled

structure FetchCall where
  attempt : ℕ
  phase : FetchPhase

structure FetchState where
  clock : ℚ
  tokens : ℚ
  last : ℚ
  /-- How often `acquire` was called. -/
  acquires : ℕ
  /-- The gates that are released, oldest first. -/
  released : List ℕ
  calls : List FetchCall
  permits : List Permit
  requests : List Request

inductive FetchEvent where
  | call
  | tick (time : ℚ)
  /-- A turn of the loop in `acquire`. -/
  | poll (id : ℕ)
  | issue (id : ℕ)
  | respond (id : ℕ) (response : FetchResponse) (random : ℚ)
  /-- `fetchImpl` rejects. -/
  | fail (id : ℕ)
  | retry (id : ℕ)

namespace RateLimiter

def start (limiter : RateLimiter) (now : ℚ) : FetchState :=
  { clock := now
    tokens := limiter.capacity
    last := now
    acquires := 0
    released := []
    calls := []
    permits := []
    requests := [] }

/-- The loop of `acquire`, from the reading of the clock to the return or to the next `sleep`. -/
def turn (limiter : RateLimiter) (s : FetchState) (id number attempt : ℕ) : FetchState :=
  let t := s.clock
  let tokens := min limiter.capacity (s.tokens + (t - s.last) / 1000 * limiter.maxRps)
  if 1 ≤ tokens then
    { s with
      tokens := tokens - 1
      last := t
      released := s.released ++ [number]
      calls := s.calls.set id ⟨attempt, .granted ⟨number, t⟩⟩
      permits := s.permits ++ [⟨number, t⟩] }
  else
    { s with
      tokens := tokens
      last := t
      calls := s.calls.set id
        ⟨attempt, .sleeping number (t + ⌈(1 - tokens) / limiter.maxRps * 1000⌉)⟩ }

/-- How long a call backs off. -/
def backoffMs (limiter : RateLimiter) (now : ℚ) (attempt : ℕ) (retryAfter : RetryAfter)
    (random : ℚ) : ℚ :=
  let backoff := (parseRetryAfter now retryAfter).getD
    (min limiter.maxBackoffMs (limiter.baseBackoffMs * 2 ^ attempt))
  backoff + ⌊backoff * (1 / 2) * random⌋

/-- The state behind an event, where the event can happen. -/
def step (limiter : RateLimiter) (s : FetchState) : FetchEvent → Option FetchState
  | .call => some { s with
      acquires := s.acquires + 1
      calls := s.calls ++ [⟨0, .waiting s.acquires⟩] }
  | .tick time => if s.clock ≤ time then some { s with clock := time } else none
  | .poll id =>
    match s.calls[id]? with
    | some ⟨attempt, .waiting number⟩ =>
      if number = 0 ∨ number - 1 ∈ s.released then some (limiter.turn s id number attempt)
      else none
    | some ⟨attempt, .sleeping number wake⟩ =>
      if wake ≤ s.clock then some (limiter.turn s id number attempt) else none
    | _ => none
  | .issue id =>
    match s.calls[id]? with
    | some ⟨attempt, .granted permit⟩ => some { s with
        calls := s.calls.set id ⟨attempt, .fetching⟩
        requests := s.requests ++ [⟨id, permit, s.clock⟩] }
    | _ => none
  | .respond id response random =>
    match s.calls[id]? with
    | some ⟨attempt, .fetching⟩ =>
      if response.status ≠ 429 ∨ limiter.maxRetries ≤ attempt then
        some { s with calls := s.calls.set id ⟨attempt, .settled⟩ }
      else
        let wake := s.clock + limiter.backoffMs s.clock attempt response.retryAfter random
        some { s with calls := s.calls.set id ⟨attempt, .backingOff wake⟩ }
    | _ => none
  | .fail id =>
    match s.calls[id]? with
    | some ⟨attempt, .fetching⟩ => some { s with calls := s.calls.set id ⟨attempt, .settled⟩ }
    | _ => none
  | .retry id =>
    match s.calls[id]? with
    | some ⟨attempt, .backingOff wake⟩ =>
      if wake ≤ s.clock then
        some { s with
          acquires := s.acquires + 1
          calls := s.calls.set id ⟨attempt + 1, .waiting s.acquires⟩ }
      else none
    | _ => none

end RateLimiter

end FogoYield.Sdk
