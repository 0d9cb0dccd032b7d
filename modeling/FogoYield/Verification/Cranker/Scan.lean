import FogoYield.Library.Run
import FogoYield.Model.Cranker.Scan
import FogoYield.Verification.Cranker.FlowState

/-! # One dispatch a flow

The slots that tasks hold against the tracker, over any interleaving of scans, results and
resets. -/

namespace FogoYield.Cranker

open FogoYield.Library FogoYield.Solana

/-! ## Slots -/

/-- A slot that is held: the flow and the time it was taken. -/
abbrev Slot := String × ℤ

def Task.slot (task : Task) : Slot := (task.flowKey, task.takenAt)

def Chain.slot (chain : Chain) : Slot := (chain.flowKey, chain.takenAt)

def Scan.live (scan : Scan) : List Slot :=
  scan.queue.map Task.slot ++ scan.active.map Chain.slot

/-- The dispatches that are under way or wait for a worker. -/
def ScanWorld.live (w : ScanWorld) : List Slot := w.scans.flatMap Scan.live

/-- No flow has two dispatches, and the tracker has each of them in flight. -/
structure Holds (flowState : FlowStateTracker) (room : Finset String) (live : List Slot) :
    Prop where
  nodup : (live.map Prod.fst).Nodup
  inFlight : ∀ slot ∈ live, ∃ attempts,
    flowState.inspect slot.1 = some (.inFlight slot.2 attempts)
  room : flowState.HasRoom room

theorem Holds.perm {flowState : FlowStateTracker} {room : Finset String} {live live' : List Slot}
    (h : Holds flowState room live) (hperm : live.Perm live') : Holds flowState room live' :=
  ⟨(hperm.map _).nodup_iff.mp h.nodup, fun slot hslot => h.inFlight slot (hperm.mem_iff.mpr hslot),
    h.room⟩

theorem Holds.sublist {flowState : FlowStateTracker} {room : Finset String}
    {live live' : List Slot} (h : Holds flowState room live) (hsub : live'.Sublist live) :
    Holds flowState room live' :=
  ⟨h.nodup.sublist (hsub.map _), fun slot hslot => h.inFlight slot (hsub.subset hslot), h.room⟩

theorem Holds.mem_room {flowState : FlowStateTracker} {room : Finset String} {live : List Slot}
    (h : Holds flowState room live) {slot : Slot} (hslot : slot ∈ live) : slot.1 ∈ room := by
  obtain ⟨attempts, hinspect⟩ := h.inFlight slot hslot
  refine h.room.keys slot.1 ?_
  by_contra hno
  rw [FlowStateTracker.inspect, BoundedMap.get_eq_none.mpr hno] at hinspect
  cases hinspect

theorem Holds.clearBackoff {flowState : FlowStateTracker} {room : Finset String}
    {live : List Slot} (h : Holds flowState room live) :
    Holds flowState.clearBackoff.2 room live := by
  refine ⟨h.nodup, ?_, h.room.call (c := .clearBackoff) (by simp [TrackerCall.flow])⟩
  intro slot hslot
  obtain ⟨attempts, hinspect⟩ := h.inFlight slot hslot
  refine ⟨attempts, ?_⟩
  rw [(flowState.inspect_clearBackoff slot.1).2, hinspect]
  rintro ⟨state, hstate, hbacks⟩
  rw [hinspect] at hstate
  cases hstate
  rcases hbacks with hbacks | hbacks <;> cases hbacks

/-! ## Releasing a slot -/

/-- The call with which a slot is released. -/
def releaseCall (flowKey : String) (result : AdvanceResult) (now : ℤ) : TrackerCall :=
  match result with
  | .error errorClass => .recordError flowKey errorClass now
  | _ => .recordSuccess flowKey

theorem releaseSlot_eq (flowState : FlowStateTracker) (flowKey : String) (result : AdvanceResult)
    (now : ℤ) : releaseSlot flowState flowKey result now =
      flowState.call (releaseCall flowKey result now) := by
  cases result <;> rfl

theorem releaseCall_flow (flowKey : String) (result : AdvanceResult) (now : ℤ) :
    (releaseCall flowKey result now).flow = some flowKey ∧
      releaseCall flowKey result now ≠ .clearBackoff := by
  cases result <;> simp [releaseCall, TrackerCall.flow]

theorem Holds.release {flowState : FlowStateTracker} {room : Finset String} {live : List Slot}
    {slot : Slot} (h : Holds flowState room (slot :: live)) (result : AdvanceResult) (now : ℤ) :
    Holds (releaseSlot flowState slot.1 result now) room live := by
  obtain ⟨hnew, hnodup⟩ := List.nodup_cons.mp h.nodup
  obtain ⟨hflow, hclear⟩ := releaseCall_flow slot.1 result now
  have hmem : ∀ flow, (releaseCall slot.1 result now).flow = some flow → flow ∈ room := by
    intro flow heq
    rw [hflow] at heq
    exact Option.some.inj heq ▸ h.mem_room (List.mem_cons_self ..)
  rw [releaseSlot_eq]
  refine ⟨hnodup, ?_, h.room.call hmem⟩
  intro other hother
  obtain ⟨attempts, hinspect⟩ := h.inFlight other (List.mem_cons_of_mem _ hother)
  refine ⟨attempts, ?_⟩
  rw [FlowStateTracker.inspect_call_ne (h.room.fits hmem) hclear, hinspect]
  rw [hflow]
  intro heq
  exact hnew (Option.some.inj heq ▸ List.mem_map_of_mem hother)

/-! ## Taking slots -/

/-- Whenever a flow asks for its slot, a task or a chain of the flow that holds one has held it for
less than the in-flight timeout: its wait for a worker and its dispatch together are shorter. -/
def Timely (toBase58 : Pubkey → String) (flowState : FlowStateTracker) (live : List Slot)
    (flows : List (ScannedFlow × ℤ)) : Prop :=
  ∀ before flow now after, flows = before ++ (flow, now) :: after →
    pickAdvanceForStatus flow.status ≠ none →
    ∀ slot ∈ live ++ (buildTasks toBase58 flowState before).1.map Task.slot,
      slot.1 = toBase58 flow.pubkey → now - slot.2 < flowState.opts.inFlightTimeoutMs

theorem refused_of_held {flowState : FlowStateTracker} {flowKey : String} {takenAt now : ℤ}
    {attempts : ℕ} (h : flowState.inspect flowKey = some (.inFlight takenAt attempts))
    (hnow : now - takenAt < flowState.opts.inFlightTimeoutMs) :
    (flowState.beginIfReady flowKey now).1.allowed = false := by
  unfold FlowStateTracker.beginIfReady
  rw [h]
  simp only
  rw [if_pos hnow]

theorem Holds.begin {flowState : FlowStateTracker} {room : Finset String} {live : List Slot}
    (h : Holds flowState room live) {flowKey : String} (hroom : flowKey ∈ room) {now : ℤ}
    (htimely : ∀ slot ∈ live, slot.1 = flowKey →
      now - slot.2 < flowState.opts.inFlightTimeoutMs) :
    Holds (flowState.beginIfReady flowKey now).2 room
      (live ++ if (flowState.beginIfReady flowKey now).1.allowed then [(flowKey, now)] else []) := by
  rcases flowState.beginIfReady_cases flowKey now with ⟨hrefused, hstate⟩ | ⟨hallowed, hstate⟩
  · rw [hstate, hrefused]
    simpa using h
  · have hnew : flowKey ∉ live.map Prod.fst := by
      intro hmem
      obtain ⟨slot, hslot, heq⟩ := List.mem_map.mp hmem
      obtain ⟨attempts, hinspect⟩ := h.inFlight slot hslot
      rw [heq] at hinspect
      rw [refused_of_held hinspect (htimely slot hslot heq)] at hallowed
      cases hallowed
    have hfits := h.room.not_evicts hroom
    rw [hstate, hallowed, if_pos rfl]
    refine ⟨?_, ?_, h.room.setState hroom _⟩
    · rw [List.map_append, List.map_singleton, List.nodup_append]
      refine ⟨h.nodup, List.nodup_singleton _, ?_⟩
      rintro key hkey other hother rfl
      obtain rfl := List.mem_singleton.mp hother
      exact hnew hkey
    · intro slot hslot
      rcases List.mem_append.mp hslot with hslot | hslot
      · obtain ⟨attempts, hinspect⟩ := h.inFlight slot hslot
        have hne : slot.1 ≠ flowKey := fun heq => hnew (heq ▸ List.mem_map_of_mem hslot)
        exact ⟨attempts, by rw [FlowStateTracker.inspect_setState hfits, if_neg hne, hinspect]⟩
      · obtain rfl := List.mem_singleton.mp hslot
        exact ⟨_, by rw [FlowStateTracker.inspect_setState hfits, if_pos rfl]⟩

section Build

variable {toBase58 : Pubkey → String} {flowState : FlowStateTracker} {flow : ScannedFlow} {now : ℤ}

theorem buildTasks_none (h : pickAdvanceForStatus flow.status = none)
    (flows : List (ScannedFlow × ℤ)) :
    buildTasks toBase58 flowState ((flow, now) :: flows) = buildTasks toBase58 flowState flows := by
  rw [buildTasks, h]

theorem buildTasks_some {dispatch : Handler} (h : pickAdvanceForStatus flow.status = some dispatch)
    (flows : List (ScannedFlow × ℤ)) :
    (buildTasks toBase58 flowState ((flow, now) :: flows)).2 =
        (buildTasks toBase58 (flowState.beginIfReady (toBase58 flow.pubkey) now).2 flows).2 ∧
      (buildTasks toBase58 flowState ((flow, now) :: flows)).1.map Task.slot =
        (if (flowState.beginIfReady (toBase58 flow.pubkey) now).1.allowed then
          [(toBase58 flow.pubkey, now)] else []) ++
        (buildTasks toBase58 (flowState.beginIfReady (toBase58 flow.pubkey) now).2 flows).1.map
          Task.slot := by
  rw [buildTasks, h]
  simp only
  split <;> exact ⟨rfl, rfl⟩

theorem timely_cons_none {live : List Slot} {flows : List (ScannedFlow × ℤ)}
    (hpick : pickAdvanceForStatus flow.status = none) :
    Timely toBase58 flowState live ((flow, now) :: flows) ↔
      Timely toBase58 flowState live flows := by
  constructor
  · rintro h before flow' now' after rfl hasks slot hslot
    refine h ((flow, now) :: before) flow' now' after rfl hasks slot ?_
    rwa [buildTasks_none hpick]
  · intro h before flow' now' after hflows hasks slot hslot
    cases before with
    | nil =>
        obtain ⟨heq, -⟩ := List.cons.inj hflows
        obtain ⟨rfl, -⟩ := Prod.mk.inj heq
        exact absurd hpick hasks
    | cons first before =>
        obtain ⟨rfl, rfl⟩ := List.cons.inj hflows
        rw [buildTasks_none hpick] at hslot
        exact h before flow' now' after rfl hasks slot hslot

theorem timely_cons_some {live : List Slot} {flows : List (ScannedFlow × ℤ)} {dispatch : Handler}
    (hpick : pickAdvanceForStatus flow.status = some dispatch) :
    Timely toBase58 flowState live ((flow, now) :: flows) ↔
      (∀ slot ∈ live, slot.1 = toBase58 flow.pubkey →
        now - slot.2 < flowState.opts.inFlightTimeoutMs) ∧
      Timely toBase58 (flowState.beginIfReady (toBase58 flow.pubkey) now).2
        (live ++ if (flowState.beginIfReady (toBase58 flow.pubkey) now).1.allowed then
          [(toBase58 flow.pubkey, now)] else []) flows := by
  have hopts : (flowState.beginIfReady (toBase58 flow.pubkey) now).2.opts = flowState.opts :=
    flowState.opts_call (.beginIfReady (toBase58 flow.pubkey) now)
  constructor
  · intro h
    refine ⟨?_, ?_⟩
    · intro slot hslot
      exact h [] flow now flows rfl (by simp [hpick]) slot (List.mem_append_left _ hslot)
    · rintro before flow' now' after rfl hasks slot hslot
      rw [hopts]
      refine h ((flow, now) :: before) flow' now' after rfl hasks slot ?_
      rwa [(buildTasks_some hpick before).2, ← List.append_assoc]
  · rintro ⟨hheld, h⟩ before flow' now' after hflows hasks slot hslot
    cases before with
    | nil =>
        obtain ⟨heq, -⟩ := List.cons.inj hflows
        obtain ⟨rfl, rfl⟩ := Prod.mk.inj heq
        exact hheld slot (by simpa [buildTasks] using hslot)
    | cons first before =>
        obtain ⟨rfl, rfl⟩ := List.cons.inj hflows
        rw [(buildTasks_some hpick before).2, ← List.append_assoc] at hslot
        rw [← hopts]
        exact h before flow' now' after rfl hasks slot hslot

end Build

/-- A scan takes the slots of the flows that have none. -/
theorem Holds.build {toBase58 : Pubkey → String} {flowState : FlowStateTracker}
    {room : Finset String} {live : List Slot} {flows : List (ScannedFlow × ℤ)}
    (h : Holds flowState room live) (hroom : ∀ flow ∈ flows, toBase58 flow.1.pubkey ∈ room)
    (htimely : Timely toBase58 flowState live flows) :
    Holds (buildTasks toBase58 flowState flows).2 room
      (live ++ (buildTasks toBase58 flowState flows).1.map Task.slot) := by
  induction flows generalizing flowState live with
  | nil => simpa [buildTasks] using h
  | cons asked flows ih =>
      obtain ⟨flow, now⟩ := asked
      have hrest : ∀ f ∈ flows, toBase58 f.1.pubkey ∈ room := fun f hf =>
        hroom f (List.mem_cons_of_mem _ hf)
      cases hpick : pickAdvanceForStatus flow.status with
      | none =>
          rw [buildTasks_none hpick]
          exact ih h hrest ((timely_cons_none hpick).mp htimely)
      | some dispatch =>
          obtain ⟨hheld, htimely⟩ := (timely_cons_some hpick).mp htimely
          have hbegin := h.begin (hroom (flow, now) (List.mem_cons_self ..)) hheld
          obtain ⟨hstate, htasks⟩ :=
            @buildTasks_some toBase58 flowState flow now dispatch hpick flows
          rw [hstate, htasks, ← List.append_assoc]
          exact ih hbegin hrest htimely

/-- A slot that was taken the in-flight timeout ago is given away again. -/
theorem allowed_of_stale {flowState : FlowStateTracker} {flowKey : String} {takenAt now : ℤ}
    {attempts : ℕ} (h : flowState.inspect flowKey = some (.inFlight takenAt attempts))
    (hnow : ¬ now - takenAt < flowState.opts.inFlightTimeoutMs) :
    (flowState.beginIfReady flowKey now).1.allowed = true := by
  unfold FlowStateTracker.beginIfReady
  rw [h]
  simp only
  rw [if_neg hnow]

/-- If no flow has two slots behind the enumeration, none asked for one that was held too long. -/
theorem Holds.timely {toBase58 : Pubkey → String} {flowState : FlowStateTracker}
    {room : Finset String} {live : List Slot} {flows : List (ScannedFlow × ℤ)}
    (h : Holds flowState room live) (hroom : ∀ flow ∈ flows, toBase58 flow.1.pubkey ∈ room)
    (hnodup : ((live ++ (buildTasks toBase58 flowState flows).1.map Task.slot).map
      Prod.fst).Nodup) : Timely toBase58 flowState live flows := by
  induction flows generalizing flowState live with
  | nil =>
      intro before flow now after hflows
      simp at hflows
  | cons asked flows ih =>
      obtain ⟨flow, now⟩ := asked
      have hrest : ∀ f ∈ flows, toBase58 f.1.pubkey ∈ room := fun f hf =>
        hroom f (List.mem_cons_of_mem _ hf)
      cases hpick : pickAdvanceForStatus flow.status with
      | none =>
          rw [buildTasks_none hpick] at hnodup
          exact (timely_cons_none hpick).mpr (ih h hrest hnodup)
      | some dispatch =>
          rw [(buildTasks_some hpick flows).2, ← List.append_assoc] at hnodup
          have hheld : ∀ slot ∈ live, slot.1 = toBase58 flow.pubkey →
              now - slot.2 < flowState.opts.inFlightTimeoutMs := by
            intro slot hslot heq
            by_contra hstale
            obtain ⟨attempts, hinspect⟩ := h.inFlight slot hslot
            have hallowed := allowed_of_stale (heq ▸ hinspect) hstale
            -- the flow has the slot in `live` and the one it is given
            rw [hallowed, if_pos rfl, List.append_assoc, List.map_append, List.nodup_append]
              at hnodup
            exact hnodup.2.2 slot.1 (List.mem_map_of_mem hslot) _ (by simp) heq
          have hbegin := h.begin (hroom (flow, now) (List.mem_cons_self ..)) hheld
          exact (timely_cons_some hpick).mpr ⟨hheld, ih hbegin hrest hnodup⟩

/-! ## Steps -/

theorem live_setScan {w : ScanWorld} {i : ℕ} {scan : Scan} (h : w.scans[i]? = some scan) :
    ∃ rest, w.live.Perm (scan.live ++ rest) ∧
      ∀ scan' flowState, ({ w with flowState := flowState }.setScan i scan').live.Perm
        (scan'.live ++ rest) := by
  obtain ⟨hi, hscan⟩ := List.getElem?_eq_some_iff.mp h
  have hsplit : w.scans = w.scans.take i ++ scan :: w.scans.drop (i + 1) := by
    rw [← hscan, List.getElem_cons_drop, List.take_append_drop]
  have hmiddle : ∀ scan' : Scan, ((w.scans.take i ++ scan' :: w.scans.drop (i + 1)).flatMap
      Scan.live).Perm (scan'.live ++ (w.scans.take i ++ w.scans.drop (i + 1)).flatMap Scan.live) := by
    intro scan'
    rw [List.flatMap_append, List.flatMap_cons, List.flatMap_append, ← List.append_assoc,
      ← List.append_assoc]
    exact List.perm_append_comm.append_right _
  refine ⟨(w.scans.take i ++ w.scans.drop (i + 1)).flatMap Scan.live, ?_, ?_⟩
  · rw [ScanWorld.live]
    nth_rewrite 1 [hsplit]
    exact hmiddle scan
  · intro scan' flowState
    rw [ScanWorld.live, ScanWorld.setScan, List.set_eq_take_append_cons_drop, if_pos hi]
    exact hmiddle scan'

/-- The dispatches of a scan without one of its chains. -/
theorem live_eraseIdx {scan : Scan} {j : ℕ} {chain : Chain} (h : scan.active[j]? = some chain) :
    scan.live.Perm (chain.slot ::
      (scan.queue.map Task.slot ++ (scan.active.eraseIdx j).map Chain.slot)) := by
  obtain ⟨hj, rfl⟩ := List.getElem?_eq_some_iff.mp h
  have hperm := (List.getElem_cons_eraseIdx_perm hj).symm.map Chain.slot
  exact (hperm.append_left _).trans List.perm_middle

theorem live_set {scan : Scan} {j : ℕ} {chain next : Chain} (h : scan.active[j]? = some chain)
    (hslot : next.slot = chain.slot) :
    (scan.active.set j next).map Chain.slot = scan.active.map Chain.slot := by
  obtain ⟨hj, rfl⟩ := List.getElem?_eq_some_iff.mp h
  rw [List.map_set, hslot, ← List.getElem_map Chain.slot (h := by simpa using hj)]
  exact List.set_getElem_self _

theorem Chain.next_slot {chain next : Chain} {aborted : Bool} {result : AdvanceResult}
    (h : chain.next aborted result = some next) : next.slot = chain.slot := by
  unfold Chain.next at h
  split at h
  · split at h
    · cases h
    · split at h
      · cases h
      · cases h
        rfl
  · cases h

/-! What a step of a scan can do. -/

theorem dispatch_spec {w w' : ScanWorld} {i : ℕ} {now : ℤ} (h : w.dispatch i now = some w') :
    ∃ scan task queue, w.scans[i]? = some scan ∧ scan.queue = task :: queue ∧
      w' = w.setScan i { scan with queue := queue, active := task.start now :: scan.active } := by
  unfold ScanWorld.dispatch at h
  split at h
  · cases h
  · rename_i scan hscan
    split at h
    · cases h
    · rename_i task queue hqueue
      split at h
      · exact ⟨scan, task, queue, hscan, hqueue, (Option.some.inj h).symm⟩
      · cases h

theorem settle_spec {w w' : ScanWorld} {i j : ℕ} {outcome : HandlerOutcome} {now : ℤ}
    (h : w.settle i j outcome now = some w') :
    ∃ scan chain, w.scans[i]? = some scan ∧ scan.active[j]? = some chain ∧
      (outcome = .throws ∧
          w' = w.setScan i { scan with active := scan.active.eraseIdx j, threw := true } ∨
        (∃ result next, outcome = .returns result ∧ chain.next scan.aborted result = some next ∧
          w' = w.setScan i { scan with active := scan.active.set j next }) ∨
        ∃ result, outcome = .returns result ∧ chain.next scan.aborted result = none ∧
          w' = { w with flowState := releaseSlot w.flowState chain.flowKey result now }.setScan i
            { scan with
              active := scan.active.eraseIdx j
              released := scan.released ++ [chain.flowKey] }) := by
  unfold ScanWorld.settle at h
  split at h
  · cases h
  · rename_i scan hscan
    split at h
    · cases h
    · rename_i chain hchain
      refine ⟨scan, chain, hscan, hchain, ?_⟩
      split at h
      · exact .inl ⟨rfl, (Option.some.inj h).symm⟩
      · rename_i result
        split at h
        · rename_i next hnext
          exact .inr (.inl ⟨result, next, rfl, hnext, (Option.some.inj h).symm⟩)
        · rename_i hnext
          exact .inr (.inr ⟨result, rfl, hnext, (Option.some.inj h).symm⟩)

theorem finish_spec {w w' : ScanWorld} {i : ℕ} (h : w.finish i = some w') :
    ∃ scan, w.scans[i]? = some scan ∧ scan.returned = false ∧ scan.active = [] ∧
      (scan.queue = [] ∨ scan.aborted = true) ∧
      w' = w.setScan i { scan with queue := [], returned := true } := by
  unfold ScanWorld.finish at h
  split at h
  · cases h
  · rename_i scan hscan
    split at h
    · rename_i hdone
      exact ⟨scan, hscan, hdone.1, hdone.2.1, hdone.2.2, (Option.some.inj h).symm⟩
    · cases h

theorem abort_spec {w w' : ScanWorld} {i : ℕ} (h : w.abort i = some w') :
    ∃ scan, w.scans[i]? = some scan ∧ scan.returned = false ∧
      w' = w.setScan i { scan with aborted := true } := by
  unfold ScanWorld.abort at h
  split at h
  · cases h
  · rename_i scan hscan
    split at h
    · rename_i hrunning
      exact ⟨scan, hscan, hrunning, (Option.some.inj h).symm⟩
    · cases h

/-- The enumerated flows of a step have room in the tracker. -/
def InRoom (toBase58 : Pubkey → String) (room : Finset String) : ScanEvent → Prop
  | .build flows _ => ∀ flow ∈ flows, toBase58 flow.1.pubkey ∈ room
  | _ => True

/-- No slot is held for the in-flight timeout or longer when the step asks for the slots of the
same flows. -/
def Undelayed (toBase58 : Pubkey → String) (w : ScanWorld) : ScanEvent → Prop
  | .build flows _ => Timely toBase58 w.flowState w.live flows
  | _ => True

theorem holds_step {toBase58 : Pubkey → String} {room : Finset String} {w w' : ScanWorld}
    {event : ScanEvent} (h : Holds w.flowState room w.live) (hstep : w.step toBase58 event = some w')
    (hroom : InRoom toBase58 room event) (htimely : Undelayed toBase58 w event) :
    Holds w'.flowState room w'.live := by
  cases event with
  | build flows maxConcurrentAdvances =>
      obtain rfl := Option.some.inj hstep
      have hbuild := h.build hroom htimely
      simpa [ScanWorld.live, Scan.live] using hbuild
  | dispatch i now =>
      obtain ⟨scan, task, queue, hscan, hqueue, rfl⟩ := dispatch_spec hstep
      obtain ⟨rest, hlive, hset⟩ := live_setScan hscan
      refine h.perm (hlive.trans (.trans ?_ (hset _ w.flowState).symm))
      refine List.Perm.append_right _ ?_
      rw [Scan.live, hqueue]
      exact List.perm_middle.symm
  | settle i j outcome now =>
      obtain ⟨scan, chain, hscan, hchain, hcase⟩ := settle_spec hstep
      obtain ⟨rest, hlive, hset⟩ := live_setScan hscan
      have hlost := h.perm (hlive.trans ((live_eraseIdx hchain).append_right rest))
      rcases hcase with ⟨-, rfl⟩ | ⟨result, next, -, hnext, rfl⟩ | ⟨result, -, hnext, rfl⟩
      · refine Holds.perm ?_ (hset _ w.flowState).symm
        exact hlost.sublist (List.sublist_cons_self ..)
      · refine h.perm (hlive.trans (.trans ?_ (hset _ w.flowState).symm))
        rw [Scan.live, Scan.live, live_set hchain (Chain.next_slot hnext)]
      · refine Holds.perm ?_ (hset _ _).symm
        exact hlost.release result now
  | abort i =>
      obtain ⟨scan, hscan, -, rfl⟩ := abort_spec hstep
      obtain ⟨rest, hlive, hset⟩ := live_setScan hscan
      refine Holds.perm ?_ (hset _ w.flowState).symm
      exact h.perm hlive
  | finish i =>
      obtain ⟨scan, hscan, -, -, -, rfl⟩ := finish_spec hstep
      obtain ⟨rest, hlive, hset⟩ := live_setScan hscan
      refine ((h.perm hlive).sublist ?_).perm (hset _ w.flowState).symm
      refine List.Sublist.append_right ?_ rest
      exact (List.nil_sublist _).append (List.Sublist.refl _)
  | clearBackoff =>
      obtain rfl := Option.some.inj hstep
      exact h.clearBackoff

/-- A step that leaves no flow with two slots has given away none that was held too long. -/
theorem undelayed_of_nodup {toBase58 : Pubkey → String} {room : Finset String} {w w' : ScanWorld}
    {event : ScanEvent} (h : Holds w.flowState room w.live)
    (hstep : w.step toBase58 event = some w') (hroom : InRoom toBase58 room event)
    (hnodup : (w'.live.map Prod.fst).Nodup) : Undelayed toBase58 w event := by
  cases event with
  | build flows maxConcurrentAdvances =>
      obtain rfl := Option.some.inj hstep
      refine h.timely hroom ?_
      simpa [ScanWorld.live, Scan.live] using hnodup
  | _ => trivial

end FogoYield.Cranker
