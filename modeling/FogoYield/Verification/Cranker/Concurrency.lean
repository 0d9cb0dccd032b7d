import FogoYield.Library.Run
import FogoYield.Library.Slots
import FogoYield.Model.Cranker.Bridge
import FogoYield.Model.Cranker.Concurrency

/-! # Correctness of the worker pool

Every index below the cursor was started exactly once and is settled or awaited by one of the
workers. A worker that sees the abort signal has just seen an item that nobody picks any more, and
one that returns otherwise has seen the end of the items; so the flag tells whether items are left
over, whenever the signal fires. -/

namespace FogoYield.Cranker

open FogoYield.Library
open List

namespace Pool

variable {α ε : Type} {items : List α} {concurrency : ℤ} {throwOnAbort : Bool}

def Step (items : List α) (throwOnAbort : Bool) (s : Pool α ε) (event : PoolEvent ε)
    (t : Pool α ε) : Prop := s.step items throwOnAbort event = some t

/-! ## Steps -/

/-- What a turn of a worker does: it starts the next item, sees the abort, or sees the end. -/
theorem turn_cases (items : List α) (s : Pool α ε) (w : ℕ) :
    (∃ h : s.i < items.length, s.signalAborted = false ∧ s.turn items w =
      { s with
        i := s.i + 1
        workers := s.workers.set w (.awaiting s.i)
        started := s.started ++ [(items[s.i], s.i)] }) ∨
    (s.i < items.length ∧ s.signalAborted = true ∧
      s.turn items w = { s with aborted := true, workers := s.workers.set w .returned }) ∨
    (items.length ≤ s.i ∧ s.turn items w = { s with workers := s.workers.set w .returned }) := by
  unfold turn
  by_cases h : s.i < items.length
  · cases hsig : s.signalAborted with
    | false => exact .inl ⟨h, rfl, by simp [h]⟩
    | true => exact .inr (.inl ⟨h, rfl, by simp [h]⟩)
  · exact .inr (.inr ⟨Nat.not_lt.mp h, by simp [h]⟩)

/-- What an event does. -/
theorem step_cases {s t : Pool α ε} {event : PoolEvent ε} (h : Step items throwOnAbort s event t) :
    (∃ w, event = .turn w ∧ s.workers[w]? = some .looping ∧ t = s.turn items w) ∨
    (∃ w idx result, event = .settle w result ∧ s.workers[w]? = some (.awaiting idx) ∧
      t = s.settle w idx result) ∨
    (event = .abort ∧ t = { s with signalAborted := true }) ∨
    (event = .finish ∧ s.outcome = none ∧ (∀ worker ∈ s.workers, worker = .returned) ∧
      t = { s with outcome := some (s.verdict throwOnAbort) }) := by
  cases event with
  | turn w =>
      simp only [Step, step, Option.ite_none_right_eq_some, Option.some.injEq] at h
      exact .inl ⟨w, rfl, h.1, h.2.symm⟩
  | settle w result =>
      simp only [Step, step] at h
      split at h
      · rename_i idx hw
        exact .inr (.inl ⟨w, idx, result, rfl, hw, (Option.some.inj h).symm⟩)
      · cases h
  | abort => exact .inr (.inr (.inl ⟨rfl, (Option.some.inj h).symm⟩))
  | finish =>
      simp only [Step, step, Option.ite_none_right_eq_some, Option.some.injEq] at h
      exact .inr (.inr (.inr ⟨rfl, h.1.1, h.1.2, h.2.symm⟩))

/-! ## The invariant -/

/-- The indices that some worker awaits. -/
def pending (workers : List PoolWorker) : List ℕ := workers.filterMap PoolWorker.idx

structure Inv (items : List α) (size : ℕ) (throwOnAbort : Bool) (s : Pool α ε) : Prop where
  workers_length : s.workers.length = size
  i_le : s.i ≤ items.length
  started_eq : s.started = (items.take s.i).zipIdx
  split : s.settled ++ pending s.workers ~ List.range s.i
  left_over : s.aborted = true → s.signalAborted = true ∧ s.i < items.length
  returned_done : .returned ∈ s.workers → s.aborted = true ∨ s.i = items.length
  outcome_done : ∀ outcome, s.outcome = some outcome →
    (∀ worker ∈ s.workers, worker = .returned) ∧ outcome = s.verdict throwOnAbort

theorem inv_call (hconc : concurrency < 2 ^ 32) :
    Inv items (max 1 concurrency).toNat throwOnAbort (call concurrency : Pool α ε) := by
  have hfits : (max 1 concurrency).toNat < 2 ^ 32 := by omega
  have hworkers : (call concurrency : Pool α ε).workers =
      List.replicate (max 1 concurrency).toNat .looping := if_pos hfits
  have houtcome : (call concurrency : Pool α ε).outcome = none := if_pos hfits
  refine ⟨?_, Nat.zero_le _, by simp [call], ?_, nofun, ?_, ?_⟩
  · rw [hworkers, List.length_replicate]
  · rw [hworkers]
    simp [call, pending, PoolWorker.idx]
  · rw [hworkers]
    intro hmem
    cases List.eq_of_mem_replicate hmem
  · intro outcome h
    cases houtcome.symm.trans h

variable {size : ℕ} {s t : Pool α ε}

/-- A worker in front of its loop test keeps the call from settling. -/
theorem Inv.outcome_none (hi : Inv items size throwOnAbort s) {w : ℕ} {worker : PoolWorker}
    (hw : s.workers[w]? = some worker) (hne : worker ≠ .returned) : s.outcome = none := by
  cases houtcome : s.outcome with
  | none => rfl
  | some outcome =>
      exact absurd ((hi.outcome_done outcome houtcome).1 worker (List.mem_of_getElem? hw)) hne

theorem Inv.pick (hi : Inv items size throwOnAbort s) {w : ℕ}
    (hw : s.workers[w]? = some .looping) (h : s.i < items.length)
    (hsig : s.signalAborted = false) :
    Inv items size throwOnAbort
      { s with
        i := s.i + 1
        workers := s.workers.set w (.awaiting s.i)
        started := s.started ++ [(items[s.i], s.i)] } where
  workers_length := by simpa using hi.workers_length
  i_le := h
  started_eq := by
    rw [hi.started_eq, List.take_succ_eq_append_getElem h, List.zipIdx_append]
    simp [Nat.min_eq_left h.le]
  split := by
    have hpending := filterMap_set_perm PoolWorker.idx hw (.awaiting s.i)
    rw [List.range_succ]
    calc
      s.settled ++ pending (s.workers.set w (.awaiting s.i))
          ~ s.settled ++ ([s.i] ++ pending s.workers) := hpending.append_left _
      _ ~ s.settled ++ pending s.workers ++ [s.i] := by
          rw [List.append_assoc]
          exact perm_append_comm.append_left _
      _ ~ List.range s.i ++ [s.i] := hi.split.append_right _
  left_over := fun hab => absurd (hi.left_over hab).1 (by simp [hsig])
  returned_done := fun hmem => by
    rcases List.mem_or_eq_of_mem_set hmem with hmem | heq
    · rcases hi.returned_done hmem with hab | hend
      · exact .inl hab
      · exact absurd hend h.ne
    · cases heq
  outcome_done := fun outcome houtcome => by
    cases (hi.outcome_none hw nofun).symm.trans houtcome

/-- A worker that returns has seen the abort in front of an item, or no item. -/
theorem Inv.exit (hi : Inv items size throwOnAbort s) {w : ℕ}
    (hw : s.workers[w]? = some .looping) {aborted : Bool}
    (hab : aborted = true → s.signalAborted = true ∧ s.i < items.length)
    (hdone : aborted = true ∨ s.i = items.length) :
    Inv items size throwOnAbort
      { s with aborted := aborted, workers := s.workers.set w .returned } where
  workers_length := by simpa using hi.workers_length
  i_le := hi.i_le
  started_eq := hi.started_eq
  split := ((filterMap_set_perm PoolWorker.idx hw .returned).append_left s.settled).trans hi.split
  left_over := hab
  returned_done := fun _ => hdone
  outcome_done := fun outcome houtcome => by
    cases (hi.outcome_none hw nofun).symm.trans houtcome

theorem Inv.settle (hi : Inv items size throwOnAbort s) {w idx : ℕ}
    (hw : s.workers[w]? = some (.awaiting idx)) (result : Except ε Unit) :
    Inv items size throwOnAbort (s.settle w idx result) where
  workers_length := by simpa [Pool.settle] using hi.workers_length
  i_le := hi.i_le
  started_eq := hi.started_eq
  split := by
    have hpending : [idx] ++ pending (s.workers.set w .looping) ~ pending s.workers :=
      filterMap_set_perm PoolWorker.idx hw .looping
    calc
      s.settled ++ [idx] ++ pending (s.workers.set w .looping)
          ~ s.settled ++ ([idx] ++ pending (s.workers.set w .looping)) := by
            rw [List.append_assoc]
      _ ~ s.settled ++ pending s.workers := hpending.append_left _
      _ ~ List.range s.i := hi.split
  left_over := hi.left_over
  returned_done := fun hmem => by
    rcases List.mem_or_eq_of_mem_set hmem with hmem | heq
    · exact hi.returned_done hmem
    · cases heq
  outcome_done := fun outcome houtcome => by
    cases (hi.outcome_none hw nofun).symm.trans houtcome

theorem Inv.step {event : PoolEvent ε} (hi : Inv items size throwOnAbort s)
    (h : Step items throwOnAbort s event t) : Inv items size throwOnAbort t := by
  obtain ⟨w, -, hw, rfl⟩ | ⟨w, idx, result, -, hw, rfl⟩ | ⟨-, rfl⟩ | ⟨-, hnone, hall, rfl⟩ :=
    step_cases h
  · obtain ⟨hlt, hsig, heq⟩ | ⟨hlt, hsig, heq⟩ | ⟨hle, heq⟩ := turn_cases items s w
    · exact heq ▸ hi.pick hw hlt hsig
    · exact heq ▸ hi.exit hw (fun _ => ⟨hsig, hlt⟩) (.inl rfl)
    · exact heq ▸ hi.exit hw hi.left_over (.inr (hi.i_le.antisymm hle))
  · exact hi.settle hw result
  · exact { hi with left_over := fun hab => ⟨rfl, (hi.left_over hab).2⟩ }
  · refine { hi with outcome_done := ?_ }
    rintro outcome houtcome
    exact ⟨hall, (Option.some.inj houtcome).symm⟩

theorem inv_of_run {ts : List (Transition (Pool α ε) (PoolEvent ε))}
    (hconc : concurrency < 2 ^ 32)
    (hr : Run (Step items throwOnAbort) (call concurrency) ts s) :
    Inv items (max 1 concurrency).toNat throwOnAbort s :=
  hr.invariant (inv_call hconc) (fun _ _ _ hi hst => hi.step hst)

/-! ## What a call does -/

theorem Inv.started_idx (hi : Inv items size throwOnAbort s) :
    s.started.map Prod.snd = List.range s.i := by
  rw [hi.started_eq, List.zipIdx_map_snd, List.length_take, Nat.min_eq_left hi.i_le,
    List.range_eq_range']

theorem Inv.active_perm (hi : Inv items size throwOnAbort s) : s.active ~ pending s.workers := by
  have hdisjoint : ∀ idx ∈ pending s.workers, idx ∉ s.settled := by
    have hnodup := hi.split.nodup_iff.mpr List.nodup_range
    intro idx hpending hsettled
    exact (List.nodup_append.mp hnodup).2.2 idx hsettled idx hpending rfl
  have hpending : (s.settled ++ pending s.workers).filter (· ∉ s.settled) = pending s.workers := by
    rw [List.filter_append, List.filter_eq_nil_iff.mpr (by simp), List.nil_append]
    exact List.filter_eq_self.mpr (by simpa using hdisjoint)
  have hfilter := hi.split.filter (fun idx => decide (idx ∉ s.settled))
  rw [hpending] at hfilter
  rw [active, hi.started_idx]
  exact hfilter.symm

theorem pending_eq_nil {workers : List PoolWorker}
    (h : ∀ worker ∈ workers, worker = .returned) : pending workers = [] := by
  refine List.filterMap_eq_nil_iff.mpr ?_
  intro worker hworker
  rw [h worker hworker]
  rfl

theorem Inv.allStarted_iff (hi : Inv items size throwOnAbort s) :
    s.AllStarted items ↔ s.i = items.length := by
  rw [AllStarted, hi.started_idx]
  constructor
  · intro hall
    by_contra hne
    have hlt : s.i < items.length := lt_of_le_of_ne hi.i_le hne
    exact absurd (List.mem_range.mp (hall s.i hlt)) (lt_irrefl _)
  · intro heq idx hidx
    exact List.mem_range.mpr (heq ▸ hidx)

/-- Once all workers have returned, the flag tells that items are left over. -/
theorem Inv.aborted_iff (hi : Inv items size throwOnAbort s) (hsize : 0 < size)
    (hall : ∀ worker ∈ s.workers, worker = .returned) :
    s.aborted = true ↔ ¬ s.AllStarted items := by
  rw [hi.allStarted_iff]
  constructor
  · intro hab
    exact (hi.left_over hab).2.ne
  · intro hne
    obtain ⟨worker, hworker⟩ := List.exists_mem_of_length_pos (hi.workers_length ▸ hsize)
    exact (hi.returned_done (hall worker hworker ▸ hworker)).resolve_right hne

/-- What holds of a call whenever it is looked at. -/
structure Bounded (items : List α) (concurrency : ℤ) (throwOnAbort : Bool)
    (s : Pool α ε) : Prop where
  started_once : (s.started.map Prod.snd).Nodup
  own_index : ∀ item idx, (item, idx) ∈ s.started → items[idx]? = some item
  active_le : (s.active.length : ℤ) ≤ max 1 concurrency
  all_settled : s.outcome ≠ none → s.active = []
  unaborted : s.outcome ≠ none → s.signalAborted = false → s.AllStarted items
  resolves_iff : throwOnAbort = true → s.outcome ≠ none →
    (s.outcome = some (.ok ()) ↔ s.AllStarted items)
  rejects_iff : throwOnAbort = true → s.outcome ≠ none →
    (s.outcome = some (.error .abortedMidFlight) ↔ ¬ s.AllStarted items)

theorem Inv.bounded (hi : Inv items (max 1 concurrency).toNat throwOnAbort s) :
    Bounded items concurrency throwOnAbort s := by
  have hsize : 0 < (max 1 concurrency).toNat := by omega
  refine ⟨?_, ?_, ?_, ?_, ?_, ?_, ?_⟩
  · rw [hi.started_idx]
    exact List.nodup_range
  · intro item idx hmem
    rw [hi.started_eq, List.mem_zipIdx_iff_getElem?, List.getElem?_take] at hmem
    split at hmem
    · exact hmem
    · cases hmem
  · have hle : s.active.length ≤ s.workers.length :=
      hi.active_perm.length_eq ▸ List.length_filterMap_le _ _
    rw [hi.workers_length] at hle
    omega
  · intro hsome
    obtain ⟨outcome, houtcome⟩ := Option.ne_none_iff_exists'.mp hsome
    have hnil := pending_eq_nil (hi.outcome_done outcome houtcome).1
    exact (hnil ▸ hi.active_perm).eq_nil
  · intro hsome hsig
    obtain ⟨outcome, houtcome⟩ := Option.ne_none_iff_exists'.mp hsome
    by_contra hleft
    have hab := (hi.aborted_iff hsize (hi.outcome_done outcome houtcome).1).mpr hleft
    rw [(hi.left_over hab).1] at hsig
    cases hsig
  · rintro rfl hsome
    obtain ⟨outcome, houtcome⟩ := Option.ne_none_iff_exists'.mp hsome
    obtain ⟨hall, rfl⟩ := hi.outcome_done outcome houtcome
    rw [houtcome, ← not_iff_not, ← hi.aborted_iff hsize hall]
    cases hab : s.aborted <;> simp [verdict, hab]
  · rintro rfl hsome
    obtain ⟨outcome, houtcome⟩ := Option.ne_none_iff_exists'.mp hsome
    obtain ⟨hall, rfl⟩ := hi.outcome_done outcome houtcome
    rw [houtcome, ← hi.aborted_iff hsize hall]
    cases hab : s.aborted <;> simp [verdict, hab]

/-! ## Rejections -/

/-- The state without what went to the hook. -/
def quiet (s : Pool α ε) : Pool α ε := { s with thrown := [] }

end Pool

/-- The event with a fulfilled promise for a rejected one. -/
def PoolEvent.fulfilled {ε : Type} : PoolEvent ε → PoolEvent ε
  | .settle w _ => .settle w (.ok ())
  | event => event

namespace Pool

/-- A rejection changes nothing but what goes to the hook. -/
theorem step_quiet (s : Pool α ε) (event : PoolEvent ε) :
    (s.step items throwOnAbort event).map quiet =
      s.quiet.step items throwOnAbort event.fulfilled := by
  cases event with
  | turn w =>
      simp only [step, PoolEvent.fulfilled, quiet, apply_ite (Option.map _), Option.map_some,
        Option.map_none]
      congr 2
      unfold turn
      split
      · split <;> rfl
      · rfl
  | settle w result =>
      simp only [step, PoolEvent.fulfilled, quiet]
      cases s.workers[w]? with
      | none => rfl
      | some worker => cases worker <;> rfl
  | abort => rfl
  | finish =>
      simp only [step, PoolEvent.fulfilled, quiet, apply_ite (Option.map _), Option.map_some,
        Option.map_none]
      rfl

/-- Whichever of the promises are rejected, the same steps can be taken, and they come to the same
state but for what goes to the hook. -/
theorem run_rejections {init : Pool α ε} {ts : List (Transition (Pool α ε) (PoolEvent ε))}
    (hr : Run (Step items throwOnAbort) init ts s) {events : List (PoolEvent ε)}
    (hevents : events.map PoolEvent.fulfilled =
      (ts.map Transition.act).map PoolEvent.fulfilled) :
    ∃ ts' s', Run (Step items throwOnAbort) init ts' s' ∧ ts'.map Transition.act = events ∧
      s'.quiet = s.quiet := by
  induction hr generalizing events with
  | nil =>
      obtain rfl := List.map_eq_nil_iff.mp hevents
      exact ⟨[], init, .nil init, rfl, rfl⟩
  | @snoc t u a ts hr hst ih =>
      rw [List.map_append, List.map_append] at hevents
      obtain ⟨before, last, rfl, hbefore, hlast⟩ := List.map_eq_append_iff.mp hevents
      obtain ⟨event, rfl, hevent⟩ := List.map_eq_singleton_iff.mp hlast
      obtain ⟨ts', t', hr', hacts, hquiet⟩ := ih hbefore
      have hstep : (t'.step items throwOnAbort event).map quiet = some u.quiet := by
        rw [step_quiet, hquiet, hevent, ← step_quiet, show t.step items throwOnAbort a = some u from
          hst, Option.map_some]
      obtain ⟨u', hst', hu'⟩ := Option.map_eq_some_iff.mp hstep
      exact ⟨ts' ++ [⟨t', event, u'⟩], u', .snoc hr' hst', by rw [List.map_append, hacts]; rfl, hu'⟩

/-- At every moment of a call every item was started at most once and with its own index, and no
more are active than there are workers. The call settles when nothing is active, a rejection keeps
no item from being started, and with `throwOnAbort` the call resolves exactly if it has started all
of them. -/
theorem runBounded_bounded {ts : List (Transition (Pool α ε) (PoolEvent ε))}
    (hconc : concurrency < 2 ^ 32)
    (hr : Run (Step items throwOnAbort) (call concurrency) ts s) :
    Bounded items concurrency throwOnAbort s ∧
      ∀ events : List (PoolEvent ε), events.map PoolEvent.fulfilled =
          (ts.map Transition.act).map PoolEvent.fulfilled →
        ∃ ts' s', Run (Step items throwOnAbort) (call concurrency) ts' s' ∧
          ts'.map Transition.act = events ∧ s'.started = s.started ∧ s'.outcome = s.outcome := by
  refine ⟨(inv_of_run hconc hr).bounded, ?_⟩
  intro events hevents
  obtain ⟨ts', s', hr', hacts, hquiet⟩ := run_rejections hr hevents
  have hstarted : s'.quiet.started = s.quiet.started := by rw [hquiet]
  have houtcome : s'.quiet.outcome = s.quiet.outcome := by rw [hquiet]
  exact ⟨ts', s', hr', hacts, hstarted, houtcome⟩

/-- An abort in front of the third item, behind a rejection. -/
theorem runBounded_bounded_aborted : ∃ ts s,
    Run (Step [10, 20, 30] true) (call 2 : Pool ℕ String) ts s ∧
      s.outcome = some (.error .abortedMidFlight) ∧ s.thrown = ["boom"] ∧
      Bounded [10, 20, 30] 2 true s := by
  let events : List (PoolEvent String) :=
    [.turn 0, .turn 1, .settle 0 (.error "boom"), .abort, .turn 0, .settle 1 (.ok ()), .turn 1,
      .finish]
  have hsome : ∃ s, events.foldlM (Pool.step [10, 20, 30] true) (call 2) = some s ∧
      s.outcome = some (.error .abortedMidFlight) ∧ s.thrown = ["boom"] := ⟨_, rfl, rfl, rfl⟩
  obtain ⟨s, hs, houtcome, hthrown⟩ := hsome
  obtain ⟨ts, hr, -⟩ := run_of_foldlM hs
  exact ⟨ts, s, hr, houtcome, hthrown, (runBounded_bounded (by omega) hr).1⟩

/-! ## The schedule of a call -/

theorem filterMap_range_getElem? (l : List α) :
    (List.range l.length).filterMap (l[·]?) = l := by
  induction l using List.reverseRecOn with
  | nil => rfl
  | append_singleton l a ih =>
      have hbelow : (List.range l.length).filterMap ((l ++ [a])[·]?) =
          (List.range l.length).filterMap (l[·]?) :=
        List.filterMap_congr (fun i hi => List.getElem?_append_left (List.mem_range.mp hi))
      rw [List.length_append, List.length_singleton, List.range_succ, List.filterMap_append, hbelow,
        ih]
      simp

/-- A call that has settled took its items off the front, and finished them in the order in which
their promises settled. -/
theorem runBounded_schedule {ts : List (Transition (Pool α ε) (PoolEvent ε))}
    (hconc : concurrency < 2 ^ 32)
    (hr : Run (Step items throwOnAbort) (call concurrency) ts s) (hsome : s.outcome ≠ none) :
    ∃ schedule : PoolSchedule α, ∀ (σ : Type) (worker : σ → α → σ) (state : σ),
      runBounded schedule worker items state =
        (s.settled.filterMap (items[·]?)).foldl worker state := by
  have hi := inv_of_run hconc hr
  obtain ⟨outcome, houtcome⟩ := Option.ne_none_iff_exists'.mp hsome
  have hperm : s.settled ~ List.range s.i := by
    simpa [pending_eq_nil (hi.outcome_done outcome houtcome).1] using hi.split
  let order (l : List α) : List α :=
    if l.length = s.i then s.settled.filterMap (l[·]?) else l
  have horder : ∀ l, order l ~ l := by
    intro l
    by_cases hlength : l.length = s.i
    · have hlist := (hlength ▸ hperm).filterMap (l[·]?)
      rw [filterMap_range_getElem?] at hlist
      simpa [order, hlength] using hlist
    · simp [order, hlength]
  refine ⟨⟨s.i, order, horder⟩, ?_⟩
  intro σ worker state
  have hlength : (items.take s.i).length = s.i := by
    rw [List.length_take, Nat.min_eq_left hi.i_le]
  have hitems : order (items.take s.i) = s.settled.filterMap (items[·]?) := by
    rw [show order (items.take s.i) = _ from if_pos hlength]
    refine List.filterMap_congr ?_
    intro idx hidx
    exact List.getElem?_take_of_lt (List.mem_range.mp (hperm.subset hidx))
  exact congrArg (List.foldl worker state) hitems

end Pool

end FogoYield.Cranker
