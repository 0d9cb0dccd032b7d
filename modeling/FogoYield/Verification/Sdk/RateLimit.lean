import FogoYield.Library.Run
import FogoYield.Library.Slots
import FogoYield.Library.TokenBucket
import FogoYield.Model.Sdk.RateLimit

/-! # The rate limit

The calls of `acquire` pass one after the other, in the order of their numbers, and each takes a token
of one bucket; so the permits are metered by the bucket whatever the callers do. A request goes out
when its caller goes on with the permit, which may be later than the reading that granted it. -/

namespace FogoYield.Sdk

open FogoYield.Library
open List

/-! ## Phases -/

/-- The gate that a call will release. -/
def FetchPhase.gate : FetchPhase → Option ℕ
  | .waiting number => some number
  | .sleeping number _ => some number
  | _ => none

/-- The permit that a call has not used. -/
def FetchPhase.permit : FetchPhase → Option Permit
  | .granted permit => some permit
  | _ => none

def FetchCall.gate (call : FetchCall) : Option ℕ := call.phase.gate

def FetchCall.permit (call : FetchCall) : Option Permit := call.phase.permit

/-- The gate in front of a call of `acquire` is released. -/
def FetchState.Passed (s : FetchState) (number : ℕ) : Prop :=
  number = 0 ∨ number - 1 ∈ s.released

/-- A call that has issued `n` requests. -/
def FetchCall.Issued (limiter : RateLimiter) (call : FetchCall) (n : ℕ) : Prop :=
  match call.phase with
  | .waiting _ => n = call.attempt ∧ call.attempt ≤ ⌈limiter.maxRetries⌉₊
  | .sleeping _ _ => n = call.attempt ∧ call.attempt ≤ ⌈limiter.maxRetries⌉₊
  | .granted _ => n = call.attempt ∧ call.attempt ≤ ⌈limiter.maxRetries⌉₊
  | .fetching => n = call.attempt + 1 ∧ call.attempt ≤ ⌈limiter.maxRetries⌉₊
  | .backingOff _ => n = call.attempt + 1 ∧ call.attempt < ⌈limiter.maxRetries⌉₊
  | .settled => n ≤ ⌈limiter.maxRetries⌉₊ + 1

theorem FetchCall.Issued.le {limiter : RateLimiter} {call : FetchCall} {n : ℕ}
    (h : call.Issued limiter n) : n ≤ ⌈limiter.maxRetries⌉₊ + 1 := by
  unfold Issued at h
  split at h <;> omega

/-! ## Steps -/

namespace RateLimiter

variable {limiter : RateLimiter} {s t : FetchState} {event : FetchEvent}

def Step (limiter : RateLimiter) (s : FetchState) (event : FetchEvent) (t : FetchState) : Prop :=
  limiter.step s event = some t

/-- What can happen. -/
inductive Effect (limiter : RateLimiter) (s : FetchState) : FetchState → Prop where
  | call : Effect limiter s { s with
      acquires := s.acquires + 1
      calls := s.calls ++ [⟨0, .waiting s.acquires⟩] }
  | tick (time : ℚ) (hle : s.clock ≤ time) : Effect limiter s { s with clock := time }
  | poll (id attempt number : ℕ) (phase : FetchPhase)
      (hcall : s.calls[id]? = some ⟨attempt, phase⟩) (hgate : phase.gate = some number)
      (hpassed : phase = .waiting number → s.Passed number) :
      Effect limiter s (limiter.turn s id number attempt)
  | issue (id attempt : ℕ) (permit : Permit)
      (hcall : s.calls[id]? = some ⟨attempt, .granted permit⟩) : Effect limiter s { s with
        calls := s.calls.set id ⟨attempt, .fetching⟩
        requests := s.requests ++ [⟨id, permit, s.clock⟩] }
  | settle (id attempt : ℕ) (hcall : s.calls[id]? = some ⟨attempt, .fetching⟩) :
      Effect limiter s { s with calls := s.calls.set id ⟨attempt, .settled⟩ }
  | backOff (id attempt : ℕ) (wake : ℚ) (hcall : s.calls[id]? = some ⟨attempt, .fetching⟩)
      (hretries : attempt < limiter.maxRetries) :
      Effect limiter s { s with calls := s.calls.set id ⟨attempt, .backingOff wake⟩ }
  | retry (id attempt : ℕ) (wake : ℚ)
      (hcall : s.calls[id]? = some ⟨attempt, .backingOff wake⟩) : Effect limiter s { s with
        acquires := s.acquires + 1
        calls := s.calls.set id ⟨attempt + 1, .waiting s.acquires⟩ }

theorem Step.effect (h : Step limiter s event t) : Effect limiter s t := by
  cases event with
  | call => exact Option.some.inj h ▸ .call
  | tick time =>
      simp only [Step, step, Option.ite_none_right_eq_some, Option.some.injEq] at h
      exact h.2 ▸ .tick time h.1
  | poll id =>
      simp only [Step, step] at h
      split at h
      · rename_i attempt number hcall
        simp only [Option.ite_none_right_eq_some, Option.some.injEq] at h
        exact h.2 ▸ .poll id attempt number _ hcall rfl (fun _ => h.1)
      · rename_i attempt number wake hcall
        simp only [Option.ite_none_right_eq_some, Option.some.injEq] at h
        exact h.2 ▸ .poll id attempt number _ hcall rfl nofun
      · cases h
  | issue id =>
      simp only [Step, step] at h
      split at h
      · rename_i attempt permit hcall
        exact Option.some.inj h ▸ .issue id attempt permit hcall
      · cases h
  | respond id response random =>
      simp only [Step, step] at h
      split at h
      · rename_i attempt hcall
        split at h
        · exact Option.some.inj h ▸ .settle id attempt hcall
        · rename_i hagain
          exact Option.some.inj h ▸ .backOff id attempt _ hcall (not_le.mp (not_or.mp hagain).2)
      · cases h
  | fail id =>
      simp only [Step, step] at h
      split at h
      · rename_i attempt hcall
        exact Option.some.inj h ▸ .settle id attempt hcall
      · cases h
  | retry id =>
      simp only [Step, step] at h
      split at h
      · rename_i attempt wake hcall
        simp only [Option.ite_none_right_eq_some, Option.some.injEq] at h
        exact h.2 ▸ .retry id attempt wake hcall
      · cases h

/-! ## The invariant -/

def bucket (s : FetchState) : Bucket ℚ := ⟨s.tokens, s.last⟩

/-- The requests of a call. -/
def issuedBy (s : FetchState) (id : ℕ) : ℕ := s.requests.countP (fun r => decide (r.call = id))

structure Inv (limiter : RateLimiter) (s : FetchState) : Prop where
  metered : Metered limiter.capacity (limiter.maxRps / 1000) (bucket s) (s.permits.map Permit.time)
  last_le : s.last ≤ s.clock
  numbers : s.permits.map Permit.number = s.released
  in_order : s.released = List.range s.released.length
  gates : s.released ++ s.calls.filterMap FetchCall.gate ~ List.range s.acquires
  passed : ∀ call ∈ s.calls, ∀ number wake, call.phase = .sleeping number wake → s.Passed number
  used : s.requests.map Request.permit ++ s.calls.filterMap FetchCall.permit ~ s.permits
  on_time : ∀ r ∈ s.requests, r.permit.time ≤ r.time
  counts : ∀ (id : ℕ) (call : FetchCall), s.calls[id]? = some call →
    call.Issued limiter (issuedBy s id)
  made : ∀ r ∈ s.requests, r.call < s.calls.length

structure Valid (limiter : RateLimiter) : Prop where
  maxRps_pos : 0 < limiter.maxRps
  capacity_ge : 1 ≤ limiter.capacity

theorem Valid.rate_nonneg (hv : limiter.Valid) : 0 ≤ limiter.maxRps / 1000 :=
  div_nonneg hv.maxRps_pos.le (by norm_num)

theorem createRateLimitedFetch_valid (opts : RateLimitedFetchOptions) :
    (createRateLimitedFetch opts).Valid :=
  ⟨(by norm_num : (0 : ℚ) < 1 / 1000).trans_le (le_max_left _ _), le_max_left _ _⟩

theorem inv_start (hv : limiter.Valid) (now : ℚ) : Inv limiter (limiter.start now) where
  metered := metered_new (zero_le_one.trans hv.capacity_ge) hv.rate_nonneg now
  last_le := le_refl now
  numbers := rfl
  in_order := rfl
  gates := .refl _
  passed := nofun
  used := .refl _
  on_time := nofun
  counts := nofun
  made := nofun

/-- The token count of a turn is that of the filled bucket. -/
theorem tokens_eq (limiter : RateLimiter) (s : FetchState) :
    min limiter.capacity (s.tokens + (s.clock - s.last) / 1000 * limiter.maxRps) =
      ((bucket s).refill limiter.capacity (limiter.maxRps / 1000) s.clock).tokens := by
  have hadded : (s.clock - s.last) / 1000 * limiter.maxRps =
      limiter.maxRps / 1000 * (s.clock - s.last) := by ring
  rw [hadded]
  rfl

variable {id attempt number : ℕ} {phase : FetchPhase}

theorem Inv.passed_of_gate (hi : Inv limiter s) (hcall : s.calls[id]? = some ⟨attempt, phase⟩)
    (hgate : phase.gate = some number) (hpassed : phase = .waiting number → s.Passed number) :
    s.Passed number := by
  cases phase with
  | waiting n => exact hpassed (congrArg _ (Option.some.inj hgate))
  | sleeping n wake =>
      obtain rfl := Option.some.inj hgate
      exact hi.passed _ (List.mem_of_getElem? hcall) n wake rfl
  | granted permit => cases hgate
  | fetching => cases hgate
  | backingOff wake => cases hgate
  | settled => cases hgate

/-- The call whose turn it is holds the gate behind the last one that was released. -/
theorem Inv.number_eq (hi : Inv limiter s) (hcall : s.calls[id]? = some ⟨attempt, phase⟩)
    (hgate : phase.gate = some number) (hprev : s.Passed number) :
    number = s.released.length := by
  have hmem : number ∈ s.calls.filterMap FetchCall.gate :=
    List.mem_filterMap.mpr ⟨_, List.mem_of_getElem? hcall, hgate⟩
  have hnodup := (List.nodup_append.mp (hi.gates.nodup_iff.mpr List.nodup_range)).2.2
  have hnew : number ∉ s.released := fun hold => hnodup number hold number hmem rfl
  rw [FetchState.Passed, hi.in_order, List.mem_range] at hprev
  rw [hi.in_order, List.mem_range] at hnew
  omega

/-- A call with a gate has issued a request for each earlier attempt. -/
theorem FetchCall.Issued.of_gate {n : ℕ} (hgate : phase.gate = some number)
    (h : FetchCall.Issued limiter ⟨attempt, phase⟩ n) :
    n = attempt ∧ attempt ≤ ⌈limiter.maxRetries⌉₊ := by
  cases phase with
  | waiting n => exact h
  | sleeping n wake => exact h
  | granted permit => cases hgate
  | fetching => cases hgate
  | backingOff wake => cases hgate
  | settled => cases hgate

theorem permit_of_gate (hgate : phase.gate = some number) : phase.permit = none := by
  cases phase with
  | granted permit => cases hgate
  | _ => rfl

/-- A call that is replaced keeps the counts if its own is kept. -/
theorem counts_set {calls : List FetchCall} {issued : ℕ → ℕ}
    (h : ∀ (id : ℕ) (call : FetchCall), calls[id]? = some call → call.Issued limiter (issued id))
    {new : FetchCall} (hnew : new.Issued limiter (issued id)) (other : ℕ) (call : FetchCall)
    (hcall : (calls.set id new)[other]? = some call) : call.Issued limiter (issued other) := by
  rw [List.getElem?_set] at hcall
  split at hcall
  · rename_i heq
    subst heq
    split at hcall
    · exact Option.some.inj hcall ▸ hnew
    · cases hcall
  · exact h other call hcall

theorem Inv.passed_set (hi : Inv limiter s) {new : FetchCall}
    (hnew : ∀ number wake, new.phase = .sleeping number wake → s.Passed number) :
    ∀ call ∈ s.calls.set id new, ∀ number wake, call.phase = .sleeping number wake →
      s.Passed number := by
  intro call hmem number wake hphase
  rcases List.mem_or_eq_of_mem_set hmem with hold | rfl
  · exact hi.passed call hold number wake hphase
  · exact hnew number wake hphase

theorem Inv.gates_set (hi : Inv limiter s) {old new : FetchCall}
    (hcall : s.calls[id]? = some old) (hgate : new.gate = old.gate) :
    s.released ++ (s.calls.set id new).filterMap FetchCall.gate ~ List.range s.acquires :=
  ((filterMap_set_of_eq FetchCall.gate hcall new hgate).append_left _).trans hi.gates

theorem Inv.used_set (hi : Inv limiter s) {old new : FetchCall}
    (hcall : s.calls[id]? = some old) (hpermit : new.permit = old.permit) :
    s.requests.map Request.permit ++ (s.calls.set id new).filterMap FetchCall.permit ~
      s.permits :=
  ((filterMap_set_of_eq FetchCall.permit hcall new hpermit).append_left _).trans hi.used

theorem Inv.refilled (hi : Inv limiter s) (hv : limiter.Valid) :
    Metered limiter.capacity (limiter.maxRps / 1000)
      ((bucket s).refill limiter.capacity (limiter.maxRps / 1000) s.clock)
      (s.permits.map Permit.time) :=
  hi.metered.refill (zero_le_one.trans hv.capacity_ge) hv.rate_nonneg hi.last_le

theorem Inv.granted (hi : Inv limiter s) (hv : limiter.Valid)
    (hcall : s.calls[id]? = some ⟨attempt, phase⟩) (hgate : phase.gate = some number)
    (hprev : s.Passed number)
    (htoken : 1 ≤ min limiter.capacity (s.tokens + (s.clock - s.last) / 1000 * limiter.maxRps)) :
    Inv limiter { s with
      tokens := min limiter.capacity (s.tokens + (s.clock - s.last) / 1000 * limiter.maxRps) - 1
      last := s.clock
      released := s.released ++ [number]
      calls := s.calls.set id ⟨attempt, .granted ⟨number, s.clock⟩⟩
      permits := s.permits ++ [⟨number, s.clock⟩] } where
  metered := by
    rw [tokens_eq] at htoken ⊢
    rw [List.map_append]
    exact (hi.refilled hv).take hv.rate_nonneg htoken
  last_le := le_refl _
  numbers := by simp [hi.numbers]
  in_order := by
    have hnumber := hi.number_eq hcall hgate hprev
    rw [List.length_append, List.length_singleton, List.range_succ, ← hi.in_order, hnumber]
  gates := by
    have hheld : [number] ++ (s.calls.set id ⟨attempt, .granted ⟨number, s.clock⟩⟩).filterMap
        FetchCall.gate ~ s.calls.filterMap FetchCall.gate := by
      have hperm := filterMap_set_perm FetchCall.gate hcall
        ⟨attempt, .granted ⟨number, s.clock⟩⟩
      rwa [show FetchCall.gate ⟨attempt, phase⟩ = some number from hgate] at hperm
    rw [List.append_assoc]
    exact (hheld.append_left _).trans hi.gates
  passed := by
    intro call hmem n wake hphase
    have hbefore : s.Passed n := by
      refine hi.passed_set ?_ call hmem n wake hphase
      exact nofun
    exact hbefore.imp_right (List.mem_append_left _)
  used := by
    have hheld : (s.calls.set id ⟨attempt, .granted ⟨number, s.clock⟩⟩).filterMap
        FetchCall.permit ~ [⟨number, s.clock⟩] ++ s.calls.filterMap FetchCall.permit := by
      have hperm := filterMap_set_perm FetchCall.permit hcall
        ⟨attempt, .granted ⟨number, s.clock⟩⟩
      rwa [show FetchCall.permit ⟨attempt, phase⟩ = none from permit_of_gate hgate] at hperm
    calc
      _ ~ s.requests.map Request.permit ++
            ([⟨number, s.clock⟩] ++ s.calls.filterMap FetchCall.permit) := hheld.append_left _
      _ ~ s.requests.map Request.permit ++ s.calls.filterMap FetchCall.permit ++
            [⟨number, s.clock⟩] := by
          rw [List.append_assoc]
          exact perm_append_comm.append_left _
      _ ~ s.permits ++ [⟨number, s.clock⟩] := hi.used.append_right _
  on_time := hi.on_time
  counts := counts_set hi.counts (FetchCall.Issued.of_gate hgate (hi.counts id _ hcall))
  made := by simpa using hi.made

theorem Inv.sleeping (hi : Inv limiter s) (hv : limiter.Valid) {wake : ℚ}
    (hcall : s.calls[id]? = some ⟨attempt, phase⟩) (hgate : phase.gate = some number)
    (hprev : s.Passed number) :
    Inv limiter { s with
      tokens := min limiter.capacity (s.tokens + (s.clock - s.last) / 1000 * limiter.maxRps)
      last := s.clock
      calls := s.calls.set id ⟨attempt, .sleeping number wake⟩ } where
  metered := by
    rw [tokens_eq]
    exact hi.refilled hv
  last_le := le_refl _
  numbers := hi.numbers
  in_order := hi.in_order
  gates := hi.gates_set hcall hgate.symm
  passed := by
    refine hi.passed_set ?_
    intro n wake' hphase
    obtain ⟨rfl, -⟩ := FetchPhase.sleeping.inj hphase
    exact hprev
  used := hi.used_set hcall (permit_of_gate hgate).symm
  on_time := hi.on_time
  counts := counts_set hi.counts (FetchCall.Issued.of_gate hgate (hi.counts id _ hcall))
  made := by simpa using hi.made

theorem Inv.turn (hi : Inv limiter s) (hv : limiter.Valid)
    (hcall : s.calls[id]? = some ⟨attempt, phase⟩) (hgate : phase.gate = some number)
    (hprev : s.Passed number) : Inv limiter (limiter.turn s id number attempt) := by
  unfold RateLimiter.turn
  by_cases htoken :
      1 ≤ min limiter.capacity (s.tokens + (s.clock - s.last) / 1000 * limiter.maxRps)
  · simp only [if_pos htoken]
    exact hi.granted hv hcall hgate hprev htoken
  · simp only [if_neg htoken]
    exact hi.sleeping hv hcall hgate hprev

/-- A call that holds neither a gate nor a permit goes on to a phase of that kind. -/
theorem Inv.move (hi : Inv limiter s) {old new : FetchCall} (hcall : s.calls[id]? = some old)
    (hgate : old.gate = none ∧ new.gate = none) (hpermit : old.permit = none ∧ new.permit = none)
    (hissued : new.Issued limiter (issuedBy s id)) :
    Inv limiter { s with calls := s.calls.set id new } where
  metered := hi.metered
  last_le := hi.last_le
  numbers := hi.numbers
  in_order := hi.in_order
  gates := hi.gates_set hcall (hgate.2.trans hgate.1.symm)
  passed := by
    refine hi.passed_set ?_
    intro number wake hphase
    have hnone := hgate.2
    rw [FetchCall.gate, hphase] at hnone
    cases hnone
  used := hi.used_set hcall (hpermit.2.trans hpermit.1.symm)
  on_time := hi.on_time
  counts := counts_set hi.counts hissued
  made := by simpa using hi.made

theorem Inv.issue (hi : Inv limiter s) {permit : Permit}
    (hcall : s.calls[id]? = some ⟨attempt, .granted permit⟩) :
    Inv limiter { s with
      calls := s.calls.set id ⟨attempt, .fetching⟩
      requests := s.requests ++ [⟨id, permit, s.clock⟩] } where
  metered := hi.metered
  last_le := hi.last_le
  numbers := hi.numbers
  in_order := hi.in_order
  gates := hi.gates_set hcall rfl
  passed := hi.passed_set nofun
  used := by
    have hheld : [permit] ++ (s.calls.set id ⟨attempt, .fetching⟩).filterMap FetchCall.permit ~
        s.calls.filterMap FetchCall.permit :=
      filterMap_set_perm FetchCall.permit hcall ⟨attempt, .fetching⟩
    rw [List.map_append, List.append_assoc]
    exact (hheld.append_left _).trans hi.used
  on_time := by
    rw [List.forall_mem_append, List.forall_mem_singleton]
    refine ⟨hi.on_time, ?_⟩
    have hmem : permit ∈ s.permits := hi.used.subset (List.mem_append_right _
      (List.mem_filterMap.mpr ⟨_, List.mem_of_getElem? hcall, rfl⟩))
    exact (hi.metered.past _ (List.mem_map_of_mem hmem)).trans hi.last_le
  counts := by
    have hbefore : id < s.calls.length := (List.getElem?_eq_some_iff.mp hcall).1
    intro other call hother
    have hcount : List.countP (fun r : Request => decide (r.call = other))
        (s.requests ++ [⟨id, permit, s.clock⟩]) = issuedBy s other + if id = other then 1 else 0 := by
      rw [List.countP_append, List.countP_singleton]
      simp [issuedBy]
    rw [issuedBy, hcount]
    rw [List.getElem?_set, if_pos hbefore] at hother
    split at hother
    · rename_i heq
      subst heq
      obtain ⟨hissued, hattempt⟩ := hi.counts id _ hcall
      rw [← Option.some.inj hother, if_pos rfl, hissued]
      exact ⟨rfl, hattempt⟩
    · rename_i hne
      rw [if_neg hne]
      exact hi.counts other call hother
  made := by
    rw [List.forall_mem_append, List.forall_mem_singleton, List.length_set]
    exact ⟨hi.made, (List.getElem?_eq_some_iff.mp hcall).1⟩

theorem issuedBy_new (hi : Inv limiter s) : issuedBy s s.calls.length = 0 := by
  refine List.countP_eq_zero.mpr ?_
  intro r hr
  simpa using (hi.made r hr).ne

theorem Inv.call (hi : Inv limiter s) :
    Inv limiter { s with
      acquires := s.acquires + 1
      calls := s.calls ++ [⟨0, .waiting s.acquires⟩] } where
  metered := hi.metered
  last_le := hi.last_le
  numbers := hi.numbers
  in_order := hi.in_order
  gates := by
    rw [List.filterMap_append, ← List.append_assoc, List.range_succ]
    exact hi.gates.append_right [s.acquires]
  passed := by
    rw [List.forall_mem_append, List.forall_mem_singleton]
    exact ⟨hi.passed, nofun⟩
  used := by
    have hnone : [(⟨0, .waiting s.acquires⟩ : FetchCall)].filterMap FetchCall.permit = [] := rfl
    rw [List.filterMap_append, hnone, List.append_nil]
    exact hi.used
  on_time := hi.on_time
  counts := by
    intro id call hcall
    rcases Nat.lt_trichotomy id s.calls.length with hlt | rfl | hgt
    · rw [List.getElem?_append_left hlt] at hcall
      exact hi.counts id call hcall
    · rw [List.getElem?_concat_length] at hcall
      rw [← Option.some.inj hcall]
      exact ⟨issuedBy_new hi, Nat.zero_le _⟩
    · rw [List.getElem?_eq_none (by simpa using Nat.succ_le_of_lt hgt)] at hcall
      cases hcall
  made := by
    intro r hr
    rw [List.length_append]
    exact Nat.lt_add_right _ (hi.made r hr)

theorem Inv.retry (hi : Inv limiter s) {wake : ℚ}
    (hcall : s.calls[id]? = some ⟨attempt, .backingOff wake⟩) :
    Inv limiter { s with
      acquires := s.acquires + 1
      calls := s.calls.set id ⟨attempt + 1, .waiting s.acquires⟩ } where
  metered := hi.metered
  last_le := hi.last_le
  numbers := hi.numbers
  in_order := hi.in_order
  gates := by
    have hheld : (s.calls.set id ⟨attempt + 1, .waiting s.acquires⟩).filterMap FetchCall.gate ~
        [s.acquires] ++ s.calls.filterMap FetchCall.gate :=
      filterMap_set_perm FetchCall.gate hcall ⟨attempt + 1, .waiting s.acquires⟩
    rw [List.range_succ]
    calc
      _ ~ s.released ++ ([s.acquires] ++ s.calls.filterMap FetchCall.gate) := hheld.append_left _
      _ ~ s.released ++ s.calls.filterMap FetchCall.gate ++ [s.acquires] := by
          rw [List.append_assoc]
          exact perm_append_comm.append_left _
      _ ~ List.range s.acquires ++ [s.acquires] := hi.gates.append_right _
  passed := hi.passed_set nofun
  used := hi.used_set hcall rfl
  on_time := hi.on_time
  counts := by
    obtain ⟨hissued, hattempt⟩ := hi.counts id _ hcall
    exact counts_set hi.counts ⟨hissued, hattempt⟩
  made := by simpa using hi.made

theorem Inv.step (hi : Inv limiter s) (hv : limiter.Valid) (h : Step limiter s event t) :
    Inv limiter t := by
  cases h.effect with
  | call => exact hi.call
  | tick time hle => exact { hi with last_le := hi.last_le.trans hle }
  | poll id attempt number phase hcall hgate hpassed =>
      exact hi.turn hv hcall hgate (hi.passed_of_gate hcall hgate hpassed)
  | issue id attempt permit hcall => exact hi.issue hcall
  | settle id attempt hcall =>
      obtain ⟨hissued, hattempt⟩ := hi.counts id _ hcall
      refine hi.move hcall ⟨rfl, rfl⟩ ⟨rfl, rfl⟩ ?_
      change issuedBy s id ≤ _
      simp only at hissued hattempt
      omega
  | backOff id attempt wake hcall hretries =>
      obtain ⟨hissued, -⟩ := hi.counts id _ hcall
      exact hi.move hcall ⟨rfl, rfl⟩ ⟨rfl, rfl⟩ ⟨hissued, Nat.lt_ceil.mpr hretries⟩
  | retry id attempt wake hcall => exact hi.retry hcall

theorem inv_of_run (hv : limiter.Valid) {now : ℚ} {ts : List (Transition FetchState FetchEvent)}
    (hr : Run (Step limiter) (limiter.start now) ts s) : Inv limiter s :=
  hr.invariant (inv_start hv now) (fun _ _ _ hi hst => hi.step hv hst)

/-! ## The limit -/

/-- Every request in an interval has a permit of its own, granted at most `δ` before. -/
theorem Inv.requests_le (hi : Inv limiter s) {δ : ℚ}
    (hδ : ∀ r ∈ s.requests, r.time ≤ r.permit.time + δ) (a c : ℚ) :
    countIn (s.requests.map Request.time) a c ≤ countIn (s.permits.map Permit.time) (a - δ) c := by
  have hsub : (s.requests.map Request.permit).Subperm s.permits :=
    ((List.sublist_append_left _ _).subperm).trans hi.used.subperm
  calc
    countIn (s.requests.map Request.time) a c
        = s.requests.countP (fun r => decide (a ≤ r.time ∧ r.time ≤ c)) := List.countP_map
    _ ≤ s.requests.countP (fun r => decide (a - δ ≤ r.permit.time ∧ r.permit.time ≤ c)) := by
        refine List.countP_mono_left ?_
        intro r hr hin
        have hlate := hδ r hr
        have hearly := hi.on_time r hr
        simp only [decide_eq_true_eq] at hin ⊢
        exact ⟨by linarith, by linarith⟩
    _ = (s.requests.map Request.permit).countP
          (fun p => decide (a - δ ≤ p.time ∧ p.time ≤ c)) := by rw [List.countP_map]; rfl
    _ ≤ s.permits.countP (fun p => decide (a - δ ≤ p.time ∧ p.time ≤ c)) := hsub.countP_le _
    _ = countIn (s.permits.map Permit.time) (a - δ) c := by rw [countIn, List.countP_map]; rfl

/-- Two calls whose requests go out at the same moment, and one that issues a request though it may
issue none. -/
def burstEvents : List FetchEvent :=
  [.call, .call, .poll 0, .tick 1000, .poll 1, .issue 0, .issue 1]

/-- A request can go out later than its permit was granted: with a capacity of one and one request a
second, two of them go out at second 1. And a call issues its first request however few retries it
is given. -/
theorem late_requests :
    let limiter := createRateLimitedFetch ⟨some 1, some 1, some (-1), none, none⟩
    limiter.capacity = 1 ∧ limiter.maxRps = 1 ∧ limiter.maxRetries = -1 ∧
      ∃ ts s, Run (Step limiter) (limiter.start 0) ts s ∧
        countIn (s.requests.map Request.time) 1000 1000 = 2 ∧ issuedBy s 0 = 1 := by
  intro limiter
  have hsome : ∃ s, burstEvents.foldlM limiter.step (limiter.start 0) = some s ∧
      countIn (s.requests.map Request.time) 1000 1000 = 2 ∧ issuedBy s 0 = 1 := by
    have hbool : ((burstEvents.foldlM limiter.step (limiter.start 0)).any (fun s =>
        countIn (s.requests.map Request.time) 1000 1000 = 2 ∧ issuedBy s 0 = 1)) = true := by
      decide +kernel
    obtain ⟨s, hs, hcounts⟩ := (Option.any_eq_true _ _).mp hbool
    exact ⟨s, hs, by simpa using hcounts⟩
  obtain ⟨s, hs, hcounts⟩ := hsome
  obtain ⟨ts, hr, -⟩ := run_of_foldlM hs
  exact ⟨by decide +kernel, by decide +kernel, by decide +kernel, ts, s, hr, hcounts⟩

/-- In every run the tokens stay within the capacity, `acquire` returns in the order in which it was
called, no interval sees more permits than the capacity and what its length adds, nor more requests
than that if these go out within `δ` of their permits; and no call issues more than one request
beyond its retries. -/
theorem rate_limit (opts : RateLimitedFetchOptions) {now : ℚ}
    {ts : List (Transition FetchState FetchEvent)}
    (hr : Run (Step (createRateLimitedFetch opts)) ((createRateLimitedFetch opts).start now) ts s) :
    let limiter := createRateLimitedFetch opts
    (0 ≤ s.tokens ∧ s.tokens ≤ limiter.capacity) ∧
      s.permits.map Permit.number = List.range s.permits.length ∧
      (∀ a c, a ≤ c → countIn (s.permits.map Permit.time) a c ≤
        limiter.capacity + limiter.maxRps * ((c - a) / 1000)) ∧
      (∀ δ, 0 ≤ δ → (∀ r ∈ s.requests, r.time ≤ r.permit.time + δ) → ∀ a c, a ≤ c →
        countIn (s.requests.map Request.time) a c ≤
          limiter.capacity + limiter.maxRps * ((c - a + δ) / 1000)) ∧
      ∀ id, issuedBy s id ≤ ⌈limiter.maxRetries⌉₊ + 1 := by
  intro limiter
  have hi : Inv limiter s := inv_of_run (createRateLimitedFetch_valid opts) hr
  have hwindow : ∀ a c, a ≤ c → (countIn (s.permits.map Permit.time) a c : ℚ) ≤
      limiter.capacity + limiter.maxRps * ((c - a) / 1000) := by
    intro a c hac
    calc
      (countIn (s.permits.map Permit.time) a c : ℚ)
          ≤ limiter.capacity + limiter.maxRps / 1000 * (c - a) := hi.metered.window a c hac
      _ = limiter.capacity + limiter.maxRps * ((c - a) / 1000) := by ring
  refine ⟨⟨hi.metered.nonneg, hi.metered.le_capacity⟩, ?_, hwindow, ?_, ?_⟩
  · have hlength : s.permits.length = s.released.length := by rw [← hi.numbers, List.length_map]
    rw [hi.numbers, hlength]
    exact hi.in_order
  · intro δ hδ hlate a c hac
    have hle : (countIn (s.requests.map Request.time) a c : ℚ) ≤
        countIn (s.permits.map Permit.time) (a - δ) c :=
      Nat.cast_le.mpr (hi.requests_le hlate a c)
    have hsplit : c - (a - δ) = c - a + δ := by ring
    exact hle.trans (hsplit ▸ hwindow (a - δ) c (by linarith))
  · intro id
    rcases Nat.lt_or_ge id s.calls.length with hlt | hge
    · exact (hi.counts id _ (List.getElem?_eq_getElem hlt)).le
    · have hzero : issuedBy s id = 0 := by
        refine List.countP_eq_zero.mpr ?_
        intro r hr
        have hmade := hi.made r hr
        simp only [decide_eq_true_eq]
        omega
      omega

/-- A call that is retried once. -/
theorem rate_limit_retried : ∃ s : FetchState,
    countIn (s.requests.map Request.time) 0 1000 = 2 ∧
      (countIn (s.requests.map Request.time) 0 1000 : ℚ) ≤ 10 + 10 * ((1000 - 0 + 0) / 1000) := by
  let limiter := createRateLimitedFetch ⟨none, none, none, none, none⟩
  let events : List FetchEvent :=
    [.call, .poll 0, .issue 0, .respond 0 ⟨429, .seconds 1⟩ 0, .tick 1000, .retry 0, .poll 0,
      .issue 0, .respond 0 ⟨200, .absent⟩ 0]
  have hbool : (events.foldlM limiter.step (limiter.start 0)).any (fun s =>
      countIn (s.requests.map Request.time) 0 1000 = 2 ∧
        ∀ r ∈ s.requests, r.time ≤ r.permit.time + 0) = true := by
    decide +kernel
  obtain ⟨s, hs, hcounts⟩ := (Option.any_eq_true _ _).mp hbool
  simp only [decide_eq_true_eq] at hcounts
  obtain ⟨ts, hr, -⟩ := run_of_foldlM hs
  have hbound := (rate_limit ⟨none, none, none, none, none⟩ hr).2.2.2.1 0 (le_refl 0) hcounts.2 0
    1000 (by norm_num)
  have hcapacity : limiter.capacity = 10 ∧ limiter.maxRps = 10 := by decide +kernel
  change _ ≤ limiter.capacity + limiter.maxRps * _ at hbound
  rw [hcapacity.1, hcapacity.2] at hbound
  exact ⟨s, hcounts.1, hbound⟩

end RateLimiter

end FogoYield.Sdk
