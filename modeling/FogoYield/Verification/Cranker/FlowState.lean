import FogoYield.Model.Cranker.FlowState

/-! # The backoff law

What each call makes of the state of a flow, and from it what a sequence of calls makes of the
attempts that are stored for the flow. -/

namespace FogoYield.Cranker

/-- The flow a call is about. -/
def TrackerCall.flow : TrackerCall → Option String
  | .beginIfReady flow _ => some flow
  | .recordSuccess flow => some flow
  | .recordError flow _ _ => some flow
  | .clearBackoff => none

namespace FlowStateTracker

/-! ## One call -/

/-- The call evicts no other flow. -/
def Fits (t : FlowStateTracker) (c : TrackerCall) : Prop :=
  ∀ flow, c.flow = some flow → ¬ t.states.Evicts flow

theorem inspect_setState {t : FlowStateTracker} {flow : String} (h : ¬ t.states.Evicts flow)
    (state : FlowProcState) (other : String) :
    (t.setState flow state).inspect other = if other = flow then some state else t.inspect other :=
  BoundedMap.get_set h state other

theorem inspect_recordSuccess (t : FlowStateTracker) (flow other : String) :
    (t.recordSuccess flow).inspect other = if other = flow then none else t.inspect other :=
  BoundedMap.get_delete t.states flow other

theorem mem_flowsOf {t : FlowStateTracker} {kind : FlowProcState → Bool} {flow : String} :
    flow ∈ t.flowsOf kind ↔ ∃ state, t.inspect flow = some state ∧ kind state := by
  rw [flowsOf, List.mem_map]
  constructor
  · rintro ⟨⟨key, state⟩, he, rfl⟩
    obtain ⟨he, hkind⟩ := List.mem_filter.mp he
    exact ⟨state, BoundedMap.get_eq_some.mpr he, hkind⟩
  · rintro ⟨state, hstate, hkind⟩
    exact ⟨(flow, state), List.mem_filter.mpr ⟨BoundedMap.get_eq_some.mp hstate, hkind⟩, rfl⟩

theorem inspect_deleteAll (t : FlowStateTracker) (flows : List String) (other : String) :
    (flows.foldl (fun t flow => { t with states := t.states.delete flow }) t).inspect other =
      if other ∈ flows then none else t.inspect other := by
  induction flows generalizing t with
  | nil => simp
  | cons flow flows ih =>
      have hdelete := inspect_recordSuccess t flow other
      rw [List.foldl_cons, ih]
      change (if other ∈ flows then none else (t.recordSuccess flow).inspect other) = _
      rw [hdelete]
      by_cases ho : other = flow <;> by_cases hmem : other ∈ flows <;> simp [ho, hmem]

/-- The flow is in cooldown or poisoned. -/
def BacksOff (t : FlowStateTracker) (flow : String) : Prop :=
  ∃ state, t.inspect flow = some state ∧ (isPoisoned state ∨ isCooldown state)

theorem inspect_clearBackoff (t : FlowStateTracker) (flow : String) :
    (BacksOff t flow → t.clearBackoff.2.inspect flow = none) ∧
      (¬ BacksOff t flow → t.clearBackoff.2.inspect flow = t.inspect flow) := by
  have hmem : flow ∈ t.flowsOf isPoisoned ++ t.flowsOf isCooldown ↔ BacksOff t flow := by
    rw [List.mem_append, mem_flowsOf, mem_flowsOf, ← exists_or]
    simp only [← and_or_left]
    rfl
  have hinspect : t.clearBackoff.2.inspect flow =
      if flow ∈ t.flowsOf isPoisoned ++ t.flowsOf isCooldown then none else t.inspect flow :=
    inspect_deleteAll t _ flow
  rw [hinspect]
  exact ⟨fun h => if_pos (hmem.mpr h), fun h => if_neg (fun hno => h (hmem.mp hno))⟩

/-! ## The attempts -/

/-- The attempts stored for a flow; an idle one has none. -/
def storedAttempts (t : FlowStateTracker) (flow : String) : ℕ :=
  ((t.inspect flow).map FlowProcState.attempts).getD 0

/-- The slot is refused and nothing changes, or it is taken with the attempts so far. -/
theorem beginIfReady_cases (t : FlowStateTracker) (flow : String) (now : ℤ) :
    (t.beginIfReady flow now).1.allowed = false ∧ (t.beginIfReady flow now).2 = t ∨
      (t.beginIfReady flow now).1.allowed = true ∧ (t.beginIfReady flow now).2 =
        t.setState flow (.inFlight now (t.storedAttempts flow)) := by
  unfold beginIfReady storedAttempts
  cases t.inspect flow with
  | none => exact .inr ⟨rfl, rfl⟩
  | some state =>
      cases state with
      | inFlight startedAt attempts =>
          simp only
          split
          · exact .inl ⟨rfl, rfl⟩
          · exact .inr ⟨rfl, rfl⟩
      | cooldown until' attempts =>
          simp only
          split
          · exact .inl ⟨rfl, rfl⟩
          · exact .inr ⟨rfl, rfl⟩
      | poisoned firstSeenAt attempts lastErrorClass => exact .inl ⟨rfl, rfl⟩

/-- When the `a`-th error at `now` may be retried. -/
def retryAt (t : FlowStateTracker) (a : ℕ) (now : ℤ) : ℤ :=
  now + (min (t.opts.cooldownBaseMs * 2 ^ (a - 1)) t.opts.cooldownMaxMs : ℕ)

/-- An error stores one attempt more: a cooldown below the threshold, poison from it on. -/
theorem recordError_spec (t : FlowStateTracker) (flow errorClass : String) (now : ℤ) :
    (t.recordError flow errorClass now).2 =
        t.setState flow (t.recordError flow errorClass now).1 ∧
      (t.recordError flow errorClass now).1.attempts = t.storedAttempts flow + 1 ∧
      (t.storedAttempts flow + 1 < t.opts.poisonThreshold →
        (t.recordError flow errorClass now).1 =
          .cooldown (t.retryAt (t.storedAttempts flow + 1) now) (t.storedAttempts flow + 1)) ∧
      (t.opts.poisonThreshold ≤ t.storedAttempts flow + 1 →
        isPoisoned (t.recordError flow errorClass now).1) := by
  unfold recordError storedAttempts retryAt
  simp only
  by_cases hpoison : ((t.inspect flow).map FlowProcState.attempts).getD 0 + 1 ≥
      t.opts.poisonThreshold
  · rw [if_pos hpoison]
    exact ⟨rfl, rfl, fun hlt => absurd hpoison (Nat.not_le.mpr hlt), fun _ => rfl⟩
  · rw [if_neg hpoison]
    exact ⟨rfl, rfl, fun _ => rfl, fun hle => absurd hle hpoison⟩

/-- Only the flow a call is about changes its state, a reset aside. -/
theorem inspect_call_ne {t : FlowStateTracker} {c : TrackerCall} (hfits : t.Fits c)
    (hreset : c ≠ .clearBackoff) {other : String} (hother : c.flow ≠ some other) :
    (t.call c).inspect other = t.inspect other := by
  cases c with
  | beginIfReady flow now =>
      have hne : other ≠ flow := fun he => hother (he ▸ rfl)
      change (t.beginIfReady flow now).2.inspect other = _
      rcases t.beginIfReady_cases flow now with ⟨-, hstate⟩ | ⟨-, hstate⟩
      · rw [hstate]
      · rw [hstate, inspect_setState (hfits flow rfl), if_neg hne]
  | recordSuccess flow =>
      have hne : other ≠ flow := fun he => hother (he ▸ rfl)
      exact (inspect_recordSuccess t flow other).trans (if_neg hne)
  | recordError flow errorClass now =>
      have hne : other ≠ flow := fun he => hother (he ▸ rfl)
      change (t.recordError flow errorClass now).2.inspect other = _
      rw [(t.recordError_spec flow errorClass now).1, inspect_setState (hfits flow rfl), if_neg hne]
  | clearBackoff => exact absurd rfl hreset

/-- The call makes the flow idle: a success, or a reset that finds it backing off. -/
def Resets (t : FlowStateTracker) (flow : String) (c : TrackerCall) : Prop :=
  c = .recordSuccess flow ∨ c = .clearBackoff ∧ t.BacksOff flow

end FlowStateTracker

def TrackerCall.isErrorOf (flow : String) : TrackerCall → Bool
  | .recordError f _ _ => f = flow
  | _ => false

namespace FlowStateTracker

theorem storedAttempts_of_inspect {t t' : FlowStateTracker} {flow : String}
    (h : t'.inspect flow = t.inspect flow) : t'.storedAttempts flow = t.storedAttempts flow := by
  rw [storedAttempts, storedAttempts, h]

theorem storedAttempts_of_resets {t : FlowStateTracker} {flow : String} {c : TrackerCall}
    (h : t.Resets flow c) : (t.call c).storedAttempts flow = 0 := by
  have hnone : (t.call c).inspect flow = none := by
    rcases h with rfl | ⟨rfl, hbacks⟩
    · exact (inspect_recordSuccess t flow flow).trans (if_pos rfl)
    · exact (t.inspect_clearBackoff flow).1 hbacks
  rw [storedAttempts, hnone]
  rfl

/-- What one call adds to the attempts. -/
theorem storedAttempts_call {t : FlowStateTracker} {flow : String} {c : TrackerCall}
    (hfits : t.Fits c) (h : ¬ t.Resets flow c) :
    (t.call c).storedAttempts flow =
      t.storedAttempts flow + if c.isErrorOf flow then 1 else 0 := by
  cases c with
  | beginIfReady f now =>
      change (t.beginIfReady f now).2.storedAttempts flow = _
      rcases t.beginIfReady_cases f now with ⟨-, hstate⟩ | ⟨-, hstate⟩
      · rw [hstate]
        rfl
      · rw [hstate, storedAttempts, inspect_setState (hfits f rfl)]
        by_cases hf : flow = f
        · rw [if_pos hf, hf]
          rfl
        · rw [if_neg hf]
          rfl
  | recordSuccess f =>
      have hne : flow ≠ f := fun he => h (.inl (he ▸ rfl))
      exact storedAttempts_of_inspect ((inspect_recordSuccess t f flow).trans (if_neg hne))
  | recordError f errorClass now =>
      change (t.recordError f errorClass now).2.storedAttempts flow = _
      obtain ⟨hstate, hattempts, -⟩ := t.recordError_spec f errorClass now
      rw [hstate, storedAttempts, inspect_setState (hfits f rfl)]
      by_cases hf : flow = f
      · rw [if_pos hf, hf]
        simp [TrackerCall.isErrorOf, hattempts]
      · rw [if_neg hf]
        simp [TrackerCall.isErrorOf, Ne.symm hf, storedAttempts]
  | clearBackoff =>
      have hkeep : ¬ t.BacksOff flow := fun hbacks => h (.inr ⟨rfl, hbacks⟩)
      exact storedAttempts_of_inspect ((t.inspect_clearBackoff flow).2 hkeep)

/-! ## A sequence of calls -/

theorem calls_append (t : FlowStateTracker) (before after : List TrackerCall) :
    t.calls (before ++ after) = (t.calls before).calls after := List.foldl_append

theorem calls_cons (t : FlowStateTracker) (c : TrackerCall) (rest : List TrackerCall) :
    t.calls (c :: rest) = (t.call c).calls rest := rfl

/-- No call of the sequence evicts a flow. -/
def NoEviction (t : FlowStateTracker) (ops : List TrackerCall) : Prop :=
  ∀ before c after, ops = before ++ c :: after → (t.calls before).Fits c

theorem NoEviction.cons {t : FlowStateTracker} {c : TrackerCall} {rest : List TrackerCall}
    (h : t.NoEviction (c :: rest)) : t.Fits c ∧ (t.call c).NoEviction rest := by
  refine ⟨h [] c rest rfl, ?_⟩
  rintro before d after rfl
  exact h (c :: before) d after rfl

theorem NoEviction.of_append {t : FlowStateTracker} {before after : List TrackerCall}
    (h : t.NoEviction (before ++ after)) : (t.calls before).NoEviction after := by
  induction before generalizing t with
  | nil => exact h
  | cons c before ih => exact ih h.cons.2

/-- None of the calls makes the flow idle. -/
def NoReset (t : FlowStateTracker) (flow : String) (ops : List TrackerCall) : Prop :=
  ∀ before c after, ops = before ++ c :: after → ¬ (t.calls before).Resets flow c

theorem NoReset.cons {t : FlowStateTracker} {flow : String} {c : TrackerCall}
    {rest : List TrackerCall} (h : t.NoReset flow (c :: rest)) :
    ¬ t.Resets flow c ∧ (t.call c).NoReset flow rest := by
  refine ⟨h [] c rest rfl, ?_⟩
  rintro before d after rfl
  exact h (c :: before) d after rfl

/-- Without a reset every error of the flow counts. -/
theorem storedAttempts_calls {t : FlowStateTracker} {flow : String} {ops : List TrackerCall}
    (hfits : t.NoEviction ops) (h : t.NoReset flow ops) :
    (t.calls ops).storedAttempts flow =
      t.storedAttempts flow + ops.countP (TrackerCall.isErrorOf flow) := by
  induction ops generalizing t with
  | nil => rfl
  | cons c rest ih =>
      rw [calls_cons, ih hfits.cons.2 h.cons.2, storedAttempts_call hfits.cons.1 h.cons.1,
        List.countP_cons]
      omega

theorem opts_call (t : FlowStateTracker) (c : TrackerCall) : (t.call c).opts = t.opts := by
  cases c with
  | beginIfReady flow now =>
      change (t.beginIfReady flow now).2.opts = _
      rcases t.beginIfReady_cases flow now with ⟨-, hstate⟩ | ⟨-, hstate⟩ <;> rw [hstate]
      rfl
  | recordSuccess flow => rfl
  | recordError flow errorClass now =>
      change (t.recordError flow errorClass now).2.opts = _
      rw [(t.recordError_spec flow errorClass now).1]
      rfl
  | clearBackoff =>
      have hopts : ∀ (flows : List String) (t : FlowStateTracker),
          (flows.foldl (fun t flow => { t with states := t.states.delete flow }) t).opts =
            t.opts := by
        intro flows
        induction flows with
        | nil => exact fun _ => rfl
        | cons flow flows ih => exact fun t => ih _
      exact hopts _ t

theorem opts_calls (t : FlowStateTracker) (ops : List TrackerCall) :
    (t.calls ops).opts = t.opts := by
  induction ops generalizing t with
  | nil => rfl
  | cons c ops ih => rw [calls_cons, ih, opts_call]

/-! ## Room -/

/-- There is room for the flows of a set, and no other flow is tracked. -/
structure HasRoom (t : FlowStateTracker) (room : Finset String) : Prop where
  card : room.card ≤ t.states.max
  keys : ∀ flow ∈ t.states.keys, flow ∈ room

theorem HasRoom.not_evicts {t : FlowStateTracker} {room : Finset String} (h : t.HasRoom room)
    {flow : String} (hflow : flow ∈ room) : ¬ t.states.Evicts flow :=
  BoundedMap.not_evicts h.card h.keys hflow

theorem HasRoom.fits {t : FlowStateTracker} {room : Finset String} (h : t.HasRoom room)
    {c : TrackerCall} (hc : ∀ flow, c.flow = some flow → flow ∈ room) : t.Fits c :=
  fun flow hflow => h.not_evicts (hc flow hflow)

theorem HasRoom.setState {t : FlowStateTracker} {room : Finset String} (h : t.HasRoom room)
    {flow : String} (hflow : flow ∈ room) (state : FlowProcState) :
    (t.setState flow state).HasRoom room := by
  refine ⟨h.card.trans (BoundedMap.max_set _ _ _).ge, ?_⟩
  intro other hother
  rcases BoundedMap.mem_keys_set (h.not_evicts hflow) hother with rfl | hother
  · exact hflow
  · exact h.keys other hother

theorem HasRoom.deleteAll {t : FlowStateTracker} {room : Finset String} (h : t.HasRoom room)
    (flows : List String) :
    (flows.foldl (fun t flow => { t with states := t.states.delete flow }) t).HasRoom room := by
  induction flows generalizing t with
  | nil => exact h
  | cons flow flows ih =>
      exact ih ⟨h.card, fun other hother => h.keys other (BoundedMap.mem_keys_delete hother)⟩

theorem HasRoom.call {t : FlowStateTracker} {room : Finset String} (h : t.HasRoom room)
    {c : TrackerCall} (hc : ∀ flow, c.flow = some flow → flow ∈ room) :
    (t.call c).HasRoom room := by
  cases c with
  | beginIfReady flow now =>
      change (t.beginIfReady flow now).2.HasRoom room
      rcases t.beginIfReady_cases flow now with ⟨-, hstate⟩ | ⟨-, hstate⟩ <;> rw [hstate]
      · exact h
      · exact h.setState (hc flow rfl) _
  | recordSuccess flow => exact h.deleteAll [flow]
  | recordError flow errorClass now =>
      change (t.recordError flow errorClass now).2.HasRoom room
      rw [(t.recordError_spec flow errorClass now).1]
      exact h.setState (hc flow rfl) _
  | clearBackoff => exact h.deleteAll _

theorem HasRoom.calls {t : FlowStateTracker} {room : Finset String} (h : t.HasRoom room)
    {ops : List TrackerCall} (hops : ∀ c ∈ ops, ∀ flow, c.flow = some flow → flow ∈ room) :
    (t.calls ops).HasRoom room := by
  induction ops generalizing t with
  | nil => exact h
  | cons c ops ih =>
      exact ih (h.call (hops c (List.mem_cons_self ..)))
        (fun d hd => hops d (List.mem_cons_of_mem _ hd))

theorem HasRoom.noEviction {t : FlowStateTracker} {room : Finset String} (h : t.HasRoom room)
    {ops : List TrackerCall} (hops : ∀ c ∈ ops, ∀ flow, c.flow = some flow → flow ∈ room) :
    t.NoEviction ops := by
  rintro before c after rfl
  have hroom := h.calls (fun d (hd : d ∈ before) => hops d (List.mem_append_left _ hd))
  exact hroom.fits (hops c (by simp))

/-! ## Waiting -/

/-- The call leaves a cooldown alone: it is about another flow, or comes too early. -/
def Waits (flow : String) (retry : ℤ) (c : TrackerCall) : Prop :=
  c ≠ .clearBackoff ∧ c.flow ≠ some flow ∨ ∃ now, c = .beginIfReady flow now ∧ now < retry

theorem allowed_of_cooldown {t : FlowStateTracker} {flow : String} {retry : ℤ} {attempts : ℕ}
    (h : t.inspect flow = some (.cooldown retry attempts)) (now : ℤ) :
    (t.beginIfReady flow now).1.allowed = true ↔ retry ≤ now := by
  unfold beginIfReady
  rw [h]
  simp only
  split <;> simp <;> omega

theorem inspect_waits {t : FlowStateTracker} {flow : String} {retry : ℤ} {attempts : ℕ}
    {c : TrackerCall} (h : t.inspect flow = some (.cooldown retry attempts)) (hfits : t.Fits c)
    (hwaits : Waits flow retry c) :
    (t.call c).inspect flow = some (.cooldown retry attempts) := by
  rcases hwaits with ⟨hreset, hother⟩ | ⟨now, rfl, hearly⟩
  · rw [inspect_call_ne hfits hreset hother, h]
  · change (t.beginIfReady flow now).2.inspect flow = _
    rcases t.beginIfReady_cases flow now with ⟨-, hstate⟩ | ⟨hallowed, -⟩
    · rw [hstate, h]
    · exact absurd ((allowed_of_cooldown h now).mp hallowed) (not_le.mpr hearly)

theorem inspect_calls_waits {t : FlowStateTracker} {flow : String} {retry : ℤ} {attempts : ℕ}
    {ops : List TrackerCall} (h : t.inspect flow = some (.cooldown retry attempts))
    (hfits : t.NoEviction ops) (hwaits : ∀ c ∈ ops, Waits flow retry c) :
    (t.calls ops).inspect flow = some (.cooldown retry attempts) := by
  induction ops generalizing t with
  | nil => exact h
  | cons c ops ih =>
      exact ih (inspect_waits h hfits.cons.1 (hwaits c (List.mem_cons_self ..))) hfits.cons.2
        (fun d hd => hwaits d (List.mem_cons_of_mem _ hd))

/-! ## Quarantine -/

/-- The flow is poisoned, with no fewer attempts than it takes. -/
def Quarantined (t : FlowStateTracker) (flow : String) : Prop :=
  (∃ state, t.inspect flow = some state ∧ isPoisoned state) ∧
    t.opts.poisonThreshold ≤ t.storedAttempts flow

theorem refused_of_quarantined {t : FlowStateTracker} {flow : String} (h : t.Quarantined flow)
    (now : ℤ) : (t.beginIfReady flow now).1.allowed = false := by
  obtain ⟨⟨state, hstate, hpoisoned⟩, -⟩ := h
  unfold beginIfReady
  rw [hstate]
  cases state with
  | inFlight startedAt attempts => cases hpoisoned
  | cooldown until' attempts => cases hpoisoned
  | poisoned firstSeenAt attempts lastErrorClass => rfl

theorem Quarantined.call {t : FlowStateTracker} {flow : String} {c : TrackerCall}
    (h : t.Quarantined flow) (hfits : t.Fits c) (hsuccess : c ≠ .recordSuccess flow)
    (hclear : c ≠ .clearBackoff) : (t.call c).Quarantined flow := by
  have hkeep : ∀ t' : FlowStateTracker, t'.opts = t.opts → t'.inspect flow = t.inspect flow →
      t'.Quarantined flow := by
    intro t' hopts hinspect
    refine ⟨by rw [hinspect]; exact h.1, ?_⟩
    rw [hopts, storedAttempts_of_inspect hinspect]
    exact h.2
  by_cases hflow : c.flow = some flow
  · cases c with
    | beginIfReady f now =>
        obtain rfl : f = flow := Option.some.inj hflow
        refine hkeep _ (opts_call t _) ?_
        change (t.beginIfReady f now).2.inspect f = _
        rcases t.beginIfReady_cases f now with ⟨-, hstate⟩ | ⟨hallowed, -⟩
        · rw [hstate]
        · rw [refused_of_quarantined h now] at hallowed
          cases hallowed
    | recordSuccess f => exact absurd (congrArg TrackerCall.recordSuccess (Option.some.inj hflow)) hsuccess
    | recordError f errorClass now =>
        obtain rfl : f = flow := Option.some.inj hflow
        obtain ⟨hstate, hattempts, -, hpoison⟩ := t.recordError_spec f errorClass now
        have hinspect : (t.recordError f errorClass now).2.inspect f =
            some (t.recordError f errorClass now).1 := by
          rw [hstate, inspect_setState (hfits f rfl), if_pos rfl]
        have hle : t.opts.poisonThreshold ≤ t.storedAttempts f + 1 := h.2.trans (Nat.le_succ _)
        refine ⟨⟨_, hinspect, hpoison hle⟩, ?_⟩
        rw [opts_call]
        change _ ≤ (t.recordError f errorClass now).2.storedAttempts f
        rw [storedAttempts, hinspect]
        exact hle.trans hattempts.ge
    | clearBackoff => exact absurd rfl hclear
  · exact hkeep _ (opts_call t c) (inspect_call_ne hfits hclear hflow)

theorem Quarantined.calls {t : FlowStateTracker} {flow : String} {ops : List TrackerCall}
    (h : t.Quarantined flow) (hfits : t.NoEviction ops)
    (hops : ∀ c ∈ ops, c ≠ .recordSuccess flow ∧ c ≠ .clearBackoff) :
    (t.calls ops).Quarantined flow := by
  induction ops generalizing t with
  | nil => exact h
  | cons c ops ih =>
      obtain ⟨hsuccess, hclear⟩ := hops c (List.mem_cons_self ..)
      exact ih (h.call hfits.cons.1 hsuccess hclear) hfits.cons.2
        (fun d hd => hops d (List.mem_cons_of_mem _ hd))

/-! ## The law -/

/-- `after` is what follows the last call that made the flow idle, or the start. -/
structure SinceReset (t : FlowStateTracker) (flow : String) (before after : List TrackerCall) :
    Prop where
  reset : before = [] ∨ ∃ front c, before = front ++ [c] ∧ (t.calls front).Resets flow c
  quiet : (t.calls before).NoReset flow after

theorem inspect_new {opts : FlowStateTrackerOptions} {t : FlowStateTracker}
    (h : new opts = some t) (flow : String) : t.inspect flow = none := by
  obtain ⟨states, hstates, rfl⟩ := Option.map_eq_some_iff.mp h
  unfold BoundedMap.new at hstates
  split at hstates
  · cases hstates
    rfl
  · cases hstates

section

variable {t : FlowStateTracker} {flow errorClass : String} {now : ℤ}

theorem inspect_call_recordError (hfit : t.Fits (.recordError flow errorClass now)) :
    (t.call (.recordError flow errorClass now)).inspect flow =
      some (t.recordError flow errorClass now).1 := by
  change (t.recordError flow errorClass now).2.inspect flow = _
  rw [(t.recordError_spec flow errorClass now).1, inspect_setState (hfit flow rfl), if_pos rfl]

theorem storedAttempts_call_recordError (hfit : t.Fits (.recordError flow errorClass now)) :
    (t.call (.recordError flow errorClass now)).storedAttempts flow =
      t.storedAttempts flow + 1 := by
  rw [storedAttempts, inspect_call_recordError hfit]
  exact (t.recordError_spec flow errorClass now).2.1

end

/-- The attempts, the waiting time, the quarantine and the independence of flows, over every
sequence of calls that evicts nothing. The times of the calls may be in any order. -/
theorem backoff_law {opts : FlowStateTrackerOptions} {t : FlowStateTracker}
    (hnew : new opts = some t) {ops : List TrackerCall} (hfits : t.NoEviction ops)
    (flow : String) :
    (∀ before after, ops = before ++ after → t.SinceReset flow before after →
      (t.calls ops).storedAttempts flow = after.countP (TrackerCall.isErrorOf flow)) ∧
    (∀ before errorClass now rest, ops = before ++ .recordError flow errorClass now :: rest →
      let a := (t.calls (before ++ [.recordError flow errorClass now])).storedAttempts flow
      (a < t.opts.poisonThreshold →
        (∀ c ∈ rest, Waits flow (t.retryAt a now) c) → ∀ later,
          ((t.calls ops).beginIfReady flow later).1.allowed = true ↔ t.retryAt a now ≤ later) ∧
      (t.opts.poisonThreshold ≤ a →
        (∀ c ∈ rest, c ≠ .recordSuccess flow ∧ c ≠ .clearBackoff) → ∀ later,
          ((t.calls ops).beginIfReady flow later).1.allowed = false)) ∧
    (∀ before c after other, ops = before ++ c :: after → c ≠ .clearBackoff →
      c.flow ≠ some other →
        (t.calls (before ++ [c])).inspect other = (t.calls before).inspect other) := by
  refine ⟨?_, ?_, ?_⟩
  · rintro before after rfl hsince
    have hzero : (t.calls before).storedAttempts flow = 0 := by
      rcases hsince.reset with rfl | ⟨front, c, rfl, hreset⟩
      · change t.storedAttempts flow = 0
        rw [storedAttempts, inspect_new hnew]
        rfl
      · rw [calls_append]
        exact storedAttempts_of_resets hreset
    rw [calls_append, storedAttempts_calls hfits.of_append hsince.quiet, hzero, Nat.zero_add]
  · rintro before errorClass now rest rfl
    obtain ⟨hfit, hrest⟩ := hfits.of_append.cons
    obtain ⟨-, -, hcooldown, hpoison⟩ :=
      (t.calls before).recordError_spec flow errorClass now
    have hopts : (t.calls before).opts = t.opts := opts_calls t before
    have hinspect := inspect_call_recordError hfit
    have hstored := storedAttempts_call_recordError hfit
    have ha : (t.calls (before ++ [.recordError flow errorClass now])).storedAttempts flow =
        (t.calls before).storedAttempts flow + 1 := by
      rw [calls_append]
      exact hstored
    rw [ha, calls_append, calls_cons]
    refine ⟨?_, ?_⟩
    · intro hlt hwaits later
      have hretry : (t.calls before).retryAt ((t.calls before).storedAttempts flow + 1) now =
          t.retryAt ((t.calls before).storedAttempts flow + 1) now := by
        rw [retryAt, retryAt, hopts]
      rw [hcooldown (hopts ▸ hlt), hretry] at hinspect
      exact allowed_of_cooldown (inspect_calls_waits hinspect hrest hwaits) later
    · intro hle hops later
      refine refused_of_quarantined (Quarantined.calls ⟨⟨_, hinspect, hpoison (hopts ▸ hle)⟩, ?_⟩
        hrest hops) later
      rw [opts_call, hopts, hstored]
      exact hle
  · rintro before c after other rfl hclear hother
    rw [calls_append]
    exact inspect_call_ne hfits.of_append.cons.1 hclear hother

/-- A tracker with the defaults. -/
def fresh : FlowStateTracker where
  states := ⟨10000, [], by decide, List.nodup_nil⟩
  opts := ⟨cooldownBaseMs, cooldownMaxMs, poisonThreshold, inFlightTimeoutMs⟩

theorem new_fresh : new ⟨none, none, none, none, none⟩ = some fresh := rfl

/-- One error at 1000 with the default options is waited out for thirty seconds. -/
theorem backoff_law_once :
    let t := fresh.calls [.beginIfReady "flow" 0, .recordError "flow" "rpc" 1000]
    (t.beginIfReady "flow" 31000).1.allowed = true ∧
      ¬ (t.beginIfReady "flow" 30999).1.allowed = true := by
  have hroom : fresh.HasRoom {"flow"} := ⟨by decide, by intro k hk; cases hk⟩
  have hfits : fresh.NoEviction [.beginIfReady "flow" 0, .recordError "flow" "rpc" 1000] := by
    refine hroom.noEviction ?_
    intro c hc flow hflow
    simp only [List.mem_cons, List.not_mem_nil, or_false] at hc
    rcases hc with rfl | rfl <;> simpa [TrackerCall.flow, eq_comm] using hflow
  have hretry := ((backoff_law new_fresh hfits "flow").2.1 [.beginIfReady "flow" 0] "rpc" 1000 []
    rfl).1 (by decide) (by simp)
  exact ⟨(hretry 31000).mpr (by decide), fun h => absurd ((hretry 30999).mp h) (by decide)⟩

end FlowStateTracker

end FogoYield.Cranker
