import FogoYield.Verification.Cranker.Scan

/-! # Dispatch chains

What a chain may call, and where the slots of a scan are until it returns. With the exclusion of
`Scan` this is what the scanner promises of every run. -/

namespace FogoYield.Cranker

open FogoYield.Library FogoYield.Solana

/-! ## The legs of a chain -/

/-- The status to which a handler is documented to advance a flow. -/
def Handler.toStatus : Handler → FlowStatus
  | .receive => .received
  | .swap => .swapped
  | .send => .closed

/-- The result reports no other advance than the documented one. -/
def Documented (dispatch : Handler) (result : AdvanceResult) : Prop :=
  ∀ toStatus, result = .advanced toStatus → toStatus = dispatch.toStatus

/-- The handlers in their order, up to the given one. -/
def legsUpTo : Handler → List Handler
  | .receive => [.receive]
  | .swap => [.receive, .swap]
  | .send => [.receive, .swap, .send]

theorem legsUpTo_initial (dispatch : Handler) : legsUpTo dispatch <+: legsUpTo .send := by
  cases dispatch with
  | receive => exact ⟨[.swap, .send], rfl⟩
  | swap => exact ⟨[.send], rfl⟩
  | send => exact List.prefix_rfl

theorem legsUpTo_next {dispatch next : Handler}
    (h : pickAdvanceForStatus dispatch.toStatus = some next) :
    legsUpTo next = legsUpTo dispatch ++ [next] := by
  cases dispatch with
  | receive =>
      obtain rfl := Option.some.inj h
      rfl
  | swap =>
      obtain rfl := Option.some.inj h
      rfl
  | send => cases h

/-- The calls of the chain end with the leg that is awaited. -/
def Chain.InOrder (chain : Chain) : Prop :=
  chain.calls <:+ legsUpTo chain.dispatch

theorem Task.inOrder_start (task : Task) (now : ℤ) : (task.start now).InOrder := by
  change [task.dispatch] <:+ legsUpTo task.dispatch
  cases task.dispatch with
  | receive => exact List.suffix_rfl
  | swap => exact ⟨[.receive], rfl⟩
  | send => exact ⟨[.receive, .swap], rfl⟩

/-- After a documented result the chain calls the leg that follows. -/
theorem Chain.next_documented {chain next : Chain} {aborted : Bool} {result : AdvanceResult}
    (h : chain.next aborted result = some next) (hdoc : Documented chain.dispatch result) :
    pickAdvanceForStatus chain.dispatch.toStatus = some next.dispatch ∧
      next.calls = chain.calls ++ [next.dispatch] := by
  unfold Chain.next at h
  split at h
  · rename_i toStatus
    obtain rfl := hdoc toStatus rfl
    split at h
    · cases h
    · rename_i nextDispatch hpick
      split at h
      · cases h
      · cases h
        exact ⟨hpick, rfl⟩
  · cases h

theorem Chain.InOrder.next {chain next : Chain} {aborted : Bool} {result : AdvanceResult}
    (hchain : chain.InOrder) (h : chain.next aborted result = some next)
    (hdoc : Documented chain.dispatch result) : next.InOrder := by
  obtain ⟨hpick, hcalls⟩ := Chain.next_documented h hdoc
  obtain ⟨earlier, hlegs⟩ := hchain
  refine ⟨earlier, ?_⟩
  rw [hcalls, legsUpTo_next hpick, ← hlegs, List.append_assoc]

theorem Chain.InOrder.segment {chain : Chain} (h : chain.InOrder) :
    chain.calls <:+: [.receive, .swap, .send] :=
  h.isInfix.trans (legsUpTo_initial chain.dispatch).isInfix

/-- A documented result ends the chain or adds a call, up to three of them. -/
def Chain.Ends (chain : Chain) : Prop :=
  ∀ aborted result next, Documented chain.dispatch result →
    chain.next aborted result = some next →
      next.calls.length = chain.calls.length + 1 ∧ next.calls.length ≤ 3

theorem Chain.InOrder.ends {chain : Chain} (h : chain.InOrder) : chain.Ends := by
  intro aborted result next hdoc hnext
  refine ⟨?_, (h.next hnext hdoc).segment.length_le⟩
  rw [(Chain.next_documented hnext hdoc).2, List.length_append, List.length_singleton]

/-! ## The scans of a step -/

theorem forall_setScan {P : Scan → Prop} {w : ScanWorld} {i : ℕ} {scan : Scan}
    (h : ∀ other ∈ w.scans, P other) (hscan : P scan) (flowState : FlowStateTracker) :
    ∀ other ∈ ({ w with flowState := flowState }.setScan i scan).scans, P other := by
  intro other hother
  rcases List.mem_or_eq_of_mem_set hother with hother | rfl
  · exact h other hother
  · exact hscan

/-- What a step makes of the scan it is about. -/
inductive ScanTurn (w : ScanWorld) : ScanEvent → Scan → Scan → Prop where
  | dispatch {i : ℕ} {now : ℤ} {scan : Scan} {task : Task} {queue : List Task}
      (hscan : w.scans[i]? = some scan) (hqueue : scan.queue = task :: queue) :
      ScanTurn w (.dispatch i now) scan
        { scan with queue := queue, active := task.start now :: scan.active }
  | throws {i j : ℕ} {now : ℤ} {scan : Scan} {chain : Chain} (hscan : w.scans[i]? = some scan)
      (hchain : scan.active[j]? = some chain) :
      ScanTurn w (.settle i j .throws now) scan
        { scan with active := scan.active.eraseIdx j, threw := true }
  | advance {i j : ℕ} {now : ℤ} {result : AdvanceResult} {scan : Scan} {chain next : Chain}
      (hscan : w.scans[i]? = some scan) (hchain : scan.active[j]? = some chain)
      (hnext : chain.next scan.aborted result = some next) :
      ScanTurn w (.settle i j (.returns result) now) scan
        { scan with active := scan.active.set j next }
  | release {i j : ℕ} {now : ℤ} {result : AdvanceResult} {scan : Scan} {chain : Chain}
      (hscan : w.scans[i]? = some scan) (hchain : scan.active[j]? = some chain)
      (hnext : chain.next scan.aborted result = none) :
      ScanTurn w (.settle i j (.returns result) now) scan
        { scan with
          active := scan.active.eraseIdx j
          released := scan.released ++ [chain.flowKey] }
  | abort {i : ℕ} {scan : Scan} (hscan : w.scans[i]? = some scan) :
      ScanTurn w (.abort i) scan { scan with aborted := true }
  | finish {i : ℕ} {scan : Scan} (hscan : w.scans[i]? = some scan) (hactive : scan.active = [])
      (hqueue : scan.queue = [] ∨ scan.aborted = true) :
      ScanTurn w (.finish i) scan { scan with queue := [], returned := true }

/-- The rule for properties of each scan: a new scan has it, and a turn keeps it. -/
theorem forall_scans_step {P : Scan → Prop} {toBase58 : Pubkey → String} {w w' : ScanWorld}
    {event : ScanEvent} (h : ∀ scan ∈ w.scans, P scan) (hstep : w.step toBase58 event = some w')
    (hnew : ∀ workers tasks, P ⟨workers, false, tasks, [], false, tasks.map Task.flowKey, [], false⟩)
    (hturn : ∀ scan scan', ScanTurn w event scan scan' → P scan → P scan') :
    ∀ scan ∈ w'.scans, P scan := by
  cases event with
  | build flows maxConcurrentAdvances =>
      obtain rfl := Option.some.inj hstep
      rw [List.forall_mem_append, List.forall_mem_singleton]
      exact ⟨h, hnew _ _⟩
  | dispatch i now =>
      obtain ⟨scan, task, queue, hscan, hqueue, rfl⟩ := dispatch_spec hstep
      have hkept := hturn scan _ (.dispatch hscan hqueue) (h scan (List.mem_of_getElem? hscan))
      exact forall_setScan h hkept w.flowState
  | settle i j outcome now =>
      obtain ⟨scan, chain, hscan, hchain, hcase⟩ := settle_spec hstep
      have hbefore := h scan (List.mem_of_getElem? hscan)
      rcases hcase with ⟨rfl, rfl⟩ | ⟨result, next, rfl, hnext, rfl⟩ | ⟨result, rfl, hnext, rfl⟩
      · exact forall_setScan h (hturn scan _ (.throws hscan hchain) hbefore) w.flowState
      · exact forall_setScan h (hturn scan _ (.advance hscan hchain hnext) hbefore) w.flowState
      · exact forall_setScan h (hturn scan _ (.release hscan hchain hnext) hbefore) _
  | abort i =>
      obtain ⟨scan, hscan, -, rfl⟩ := abort_spec hstep
      have hkept := hturn scan _ (.abort hscan) (h scan (List.mem_of_getElem? hscan))
      exact forall_setScan h hkept w.flowState
  | finish i =>
      obtain ⟨scan, hscan, -, hactive, hqueue, rfl⟩ := finish_spec hstep
      have hkept := hturn scan _ (.finish hscan hactive hqueue)
        (h scan (List.mem_of_getElem? hscan))
      exact forall_setScan h hkept w.flowState
  | clearBackoff =>
      obtain rfl := Option.some.inj hstep
      exact h

/-- The handler that settles reports the transition it is documented to make. -/
def DocumentedStep (w : ScanWorld) : ScanEvent → Prop
  | .settle i j (.returns result) _ =>
    ∀ scan ∈ w.scans[i]?, ∀ chain ∈ scan.active[j]?, Documented chain.dispatch result
  | _ => True

theorem inOrder_step {toBase58 : Pubkey → String} {w w' : ScanWorld} {event : ScanEvent}
    (h : ∀ scan ∈ w.scans, ∀ chain ∈ scan.active, chain.InOrder)
    (hstep : w.step toBase58 event = some w') (hdoc : DocumentedStep w event) :
    ∀ scan ∈ w'.scans, ∀ chain ∈ scan.active, chain.InOrder := by
  refine forall_scans_step h hstep (fun _ _ => nofun) ?_
  intro scan scan' hturn hactive
  cases hturn with
  | @dispatch i now scan task queue hscan hqueue =>
      rw [List.forall_mem_cons]
      exact ⟨task.inOrder_start now, hactive⟩
  | throws hscan hchain =>
      exact fun other hother => hactive other (List.mem_of_mem_eraseIdx hother)
  | @advance i j now result scan chain next hscan hchain hnext =>
      intro other hother
      rcases List.mem_or_eq_of_mem_set hother with hother | rfl
      · exact hactive other hother
      · exact (hactive chain (List.mem_of_getElem? hchain)).next hnext
          (hdoc scan hscan chain hchain)
  | release hscan hchain hnext =>
      exact fun other hother => hactive other (List.mem_of_mem_eraseIdx hother)
  | abort hscan => exact hactive
  | finish hscan hempty hqueue => exact hactive

/-! ## The slots of a scan -/

/-- Each slot that the scan has taken is queued, held by a chain or released, and none is left
behind when the scan has returned. -/
structure Scan.Accounted (scan : Scan) : Prop where
  slots : scan.aborted = false → scan.threw = false →
    (scan.queue.map Task.flowKey ++ scan.active.map Chain.flowKey ++ scan.released).Perm scan.taken
  done : scan.returned = true → scan.queue = [] ∧ scan.active = []

theorem Scan.Accounted.running {scan : Scan} (h : scan.Accounted) {j : ℕ} {chain : Chain}
    (hchain : scan.active[j]? = some chain) : scan.returned ≠ true := by
  intro hreturned
  rw [(h.done hreturned).2] at hchain
  cases hchain

theorem flowKey_eraseIdx {scan : Scan} {j : ℕ} {chain : Chain}
    (h : scan.active[j]? = some chain) :
    ((scan.active.eraseIdx j).map Chain.flowKey ++ (scan.released ++ [chain.flowKey])).Perm
      (scan.active.map Chain.flowKey ++ scan.released) := by
  obtain ⟨hj, rfl⟩ := List.getElem?_eq_some_iff.mp h
  have hperm := (List.getElem_cons_eraseIdx_perm hj).map Chain.flowKey
  rw [← List.append_assoc]
  refine List.perm_append_comm.trans ?_
  exact hperm.append_right scan.released

theorem flowKey_set {scan : Scan} {j : ℕ} {chain next : Chain}
    (h : scan.active[j]? = some chain) (hslot : next.slot = chain.slot) :
    (scan.active.set j next).map Chain.flowKey = scan.active.map Chain.flowKey := by
  have hslots := congrArg (List.map Prod.fst) (live_set h hslot)
  rw [List.map_map, List.map_map] at hslots
  exact hslots

theorem accounted_step {toBase58 : Pubkey → String} {w w' : ScanWorld} {event : ScanEvent}
    (h : ∀ scan ∈ w.scans, scan.Accounted) (hstep : w.step toBase58 event = some w') :
    ∀ scan ∈ w'.scans, scan.Accounted := by
  refine forall_scans_step h hstep ?_ ?_
  · intro workers tasks
    exact ⟨fun _ _ => by simp, nofun⟩
  · intro scan scan' hturn hscan
    cases hturn with
    | @dispatch i now scan task queue _ hqueue =>
        refine ⟨?_, ?_⟩
        · intro haborted hthrew
          refine .trans (.append_right _ ?_) (hscan.slots haborted hthrew)
          rw [hqueue]
          exact List.perm_middle
        · intro hreturned
          rw [(hscan.done hreturned).1] at hqueue
          cases hqueue
    | throws _ hchain =>
        exact ⟨fun _ hthrew => absurd hthrew (by simp),
          fun hreturned => absurd hreturned (hscan.running hchain)⟩
    | advance _ hchain hnext =>
        refine ⟨?_, fun hreturned => absurd hreturned (hscan.running hchain)⟩
        intro haborted hthrew
        simp only [flowKey_set hchain (Chain.next_slot hnext)]
        exact hscan.slots haborted hthrew
    | release _ hchain hnext =>
        refine ⟨?_, fun hreturned => absurd hreturned (hscan.running hchain)⟩
        intro haborted hthrew
        refine .trans ?_ (hscan.slots haborted hthrew)
        rw [List.append_assoc, List.append_assoc]
        exact (flowKey_eraseIdx hchain).append_left _
    | abort _ => exact ⟨fun haborted => absurd haborted (by simp), hscan.done⟩
    | finish _ hactive hqueue =>
        refine ⟨?_, fun _ => ⟨rfl, hactive⟩⟩
        intro haborted hthrew
        rcases hqueue with hqueue | hqueue
        · simpa only [hqueue] using hscan.slots haborted hthrew
        · cases haborted.symm.trans hqueue

/-! ## The slots in the tracker -/

/-- The tracker has no slot in flight but those of the dispatches. -/
def Tight (flowState : FlowStateTracker) (live : List Slot) : Prop :=
  ∀ flow startedAt attempts, flowState.inspect flow = some (.inFlight startedAt attempts) →
    (flow, startedAt) ∈ live

theorem Tight.mono {flowState : FlowStateTracker} {live live' : List Slot}
    (h : Tight flowState live) (hsub : ∀ slot ∈ live, slot ∈ live') : Tight flowState live' :=
  fun flow startedAt attempts hinspect => hsub _ (h flow startedAt attempts hinspect)

theorem Tight.clearBackoff {flowState : FlowStateTracker} {live : List Slot}
    (h : Tight flowState live) : Tight flowState.clearBackoff.2 live := by
  intro flow startedAt attempts hinspect
  obtain ⟨hbacks, hkeeps⟩ := flowState.inspect_clearBackoff flow
  by_cases hb : flowState.BacksOff flow
  · rw [hbacks hb] at hinspect
    cases hinspect
  · rw [hkeeps hb] at hinspect
    exact h flow startedAt attempts hinspect

/-- A release leaves its flow idle or backing off. -/
theorem inspect_release {flowState : FlowStateTracker} {room : Finset String}
    (h : flowState.HasRoom room) {flowKey : String} (hkey : flowKey ∈ room)
    (result : AdvanceResult) (now startedAt : ℤ) (attempts : ℕ) :
    (releaseSlot flowState flowKey result now).inspect flowKey ≠
      some (.inFlight startedAt attempts) := by
  intro hinspect
  cases result with
  | error errorClass =>
      obtain ⟨hstate, -, hcooldown, hpoisoned⟩ :=
        flowState.recordError_spec flowKey errorClass now
      change (flowState.recordError flowKey errorClass now).2.inspect flowKey = _ at hinspect
      rw [hstate, FlowStateTracker.inspect_setState (h.not_evicts hkey), if_pos rfl] at hinspect
      have hflight := Option.some.inj hinspect
      rcases Nat.lt_or_ge (flowState.storedAttempts flowKey + 1) flowState.opts.poisonThreshold with
        hlt | hle
      · rw [hcooldown hlt] at hflight
        cases hflight
      · have hpoison := hpoisoned hle
        rw [hflight] at hpoison
        cases hpoison
  | noop =>
      change (flowState.recordSuccess flowKey).inspect flowKey = _ at hinspect
      rw [FlowStateTracker.inspect_recordSuccess, if_pos rfl] at hinspect
      cases hinspect
  | advanced toStatus =>
      change (flowState.recordSuccess flowKey).inspect flowKey = _ at hinspect
      rw [FlowStateTracker.inspect_recordSuccess, if_pos rfl] at hinspect
      cases hinspect

theorem Tight.release {flowState : FlowStateTracker} {room : Finset String} {live : List Slot}
    {slot : Slot} (h : Tight flowState (slot :: live)) (hroom : flowState.HasRoom room)
    (hslot : slot.1 ∈ room) (result : AdvanceResult) (now : ℤ) :
    Tight (releaseSlot flowState slot.1 result now) live := by
  intro flow startedAt attempts hinspect
  by_cases heq : flow = slot.1
  · rw [heq] at hinspect
    exact absurd hinspect (inspect_release hroom hslot result now startedAt attempts)
  · obtain ⟨hflow, hclear⟩ := releaseCall_flow slot.1 result now
    have hfits : flowState.Fits (releaseCall slot.1 result now) := by
      refine hroom.fits ?_
      intro other hother
      rw [hflow] at hother
      exact Option.some.inj hother ▸ hslot
    rw [releaseSlot_eq, FlowStateTracker.inspect_call_ne hfits hclear
      (fun hother => heq (Option.some.inj (hother.symm.trans hflow)))] at hinspect
    rcases List.mem_cons.mp (h flow startedAt attempts hinspect) with rfl | hmem
    · exact absurd rfl heq
    · exact hmem

theorem Tight.begin {flowState : FlowStateTracker} {room : Finset String} {live : List Slot}
    (h : Tight flowState live) (hroom : flowState.HasRoom room) {flowKey : String}
    (hkey : flowKey ∈ room) (now : ℤ) :
    Tight (flowState.beginIfReady flowKey now).2
      (live ++ if (flowState.beginIfReady flowKey now).1.allowed then [(flowKey, now)] else []) := by
  rcases flowState.beginIfReady_cases flowKey now with ⟨hrefused, hstate⟩ | ⟨hallowed, hstate⟩
  · rw [hstate, hrefused]
    simpa using h
  · rw [hstate, hallowed, if_pos rfl]
    intro flow startedAt attempts hinspect
    rw [FlowStateTracker.inspect_setState (hroom.not_evicts hkey)] at hinspect
    split at hinspect
    · rename_i heq
      obtain ⟨rfl, -⟩ := FlowProcState.inFlight.inj (Option.some.inj hinspect)
      exact List.mem_append_right _ (heq ▸ List.mem_singleton_self _)
    · exact List.mem_append_left _ (h flow startedAt attempts hinspect)

theorem Tight.build {toBase58 : Pubkey → String} {flowState : FlowStateTracker}
    {room : Finset String} {live : List Slot} {flows : List (ScannedFlow × ℤ)}
    (h : Tight flowState live) (hhas : flowState.HasRoom room)
    (hroom : ∀ flow ∈ flows, toBase58 flow.1.pubkey ∈ room) :
    Tight (buildTasks toBase58 flowState flows).2
      (live ++ (buildTasks toBase58 flowState flows).1.map Task.slot) := by
  induction flows generalizing flowState live with
  | nil => simpa [buildTasks] using h
  | cons asked flows ih =>
      obtain ⟨flow, now⟩ := asked
      have hrest : ∀ f ∈ flows, toBase58 f.1.pubkey ∈ room := fun f hf =>
        hroom f (List.mem_cons_of_mem _ hf)
      have hkey := hroom (flow, now) (List.mem_cons_self ..)
      cases hpick : pickAdvanceForStatus flow.status with
      | none =>
          rw [buildTasks_none hpick]
          exact ih h hhas hrest
      | some dispatch =>
          obtain ⟨hstate, htasks⟩ :=
            @buildTasks_some toBase58 flowState flow now dispatch hpick flows
          have hhas' : (flowState.beginIfReady (toBase58 flow.pubkey) now).2.HasRoom room :=
            hhas.call (c := .beginIfReady (toBase58 flow.pubkey) now)
              (fun other hother => Option.some.inj hother ▸ hkey)
          rw [hstate, htasks, ← List.append_assoc]
          exact ih (h.begin hhas hkey now) hhas' hrest

/-- A scan is aborted, or a handler breaks its contract. -/
def Leaks : ScanEvent → Prop
  | .abort _ => True
  | .settle _ _ .throws _ => True
  | _ => False

theorem aborted_step {toBase58 : Pubkey → String} {w w' : ScanWorld} {event : ScanEvent}
    (h : ∀ scan ∈ w.scans, scan.aborted = false) (hstep : w.step toBase58 event = some w')
    (hleaks : ¬ Leaks event) : ∀ scan ∈ w'.scans, scan.aborted = false := by
  refine forall_scans_step h hstep (fun _ _ => rfl) ?_
  intro scan scan' hturn haborted
  cases hturn with
  | dispatch => exact haborted
  | throws => exact absurd trivial hleaks
  | advance => exact haborted
  | release => exact haborted
  | abort => exact absurd trivial hleaks
  | finish => exact haborted

theorem tight_step {toBase58 : Pubkey → String} {room : Finset String} {w w' : ScanWorld}
    {event : ScanEvent} (h : Tight w.flowState w.live) (hholds : Holds w.flowState room w.live)
    (haborted : ∀ scan ∈ w.scans, scan.aborted = false)
    (hstep : w.step toBase58 event = some w') (hroom : InRoom toBase58 room event)
    (hleaks : ¬ Leaks event) : Tight w'.flowState w'.live := by
  cases event with
  | build flows maxConcurrentAdvances =>
      obtain rfl := Option.some.inj hstep
      have hbuild := h.build hholds.room hroom
      simpa [ScanWorld.live, Scan.live] using hbuild
  | dispatch i now =>
      obtain ⟨scan, task, queue, hscan, hqueue, rfl⟩ := dispatch_spec hstep
      obtain ⟨rest, hlive, hset⟩ := live_setScan hscan
      have hmove : scan.live.Perm
          (Scan.live { scan with queue := queue, active := task.start now :: scan.active }) := by
        rw [Scan.live, hqueue]
        exact List.perm_middle.symm
      refine h.mono ?_
      intro slot hslot
      exact (hset _ w.flowState).mem_iff.mpr
        ((hmove.append_right rest).mem_iff.mp (hlive.mem_iff.mp hslot))
  | settle i j outcome now =>
      obtain ⟨scan, chain, hscan, hchain, hcase⟩ := settle_spec hstep
      obtain ⟨rest, hlive, hset⟩ := live_setScan hscan
      have hlost := hlive.trans ((live_eraseIdx hchain).append_right rest)
      rcases hcase with ⟨rfl, -⟩ | ⟨result, next, -, hnext, rfl⟩ | ⟨result, -, hnext, rfl⟩
      · exact absurd trivial hleaks
      · refine h.mono ?_
        intro slot hslot
        rw [(hset _ w.flowState).mem_iff, Scan.live, live_set hchain (Chain.next_slot hnext)]
        exact hlive.mem_iff.mp hslot
      · refine Tight.mono ?_ (fun slot hslot => (hset _ _).mem_iff.mpr hslot)
        exact (h.mono (fun slot hslot => hlost.mem_iff.mp hslot)).release hholds.room
          (hholds.mem_room (hlost.mem_iff.mpr (List.mem_cons_self ..))) result now
  | abort i => exact absurd trivial hleaks
  | finish i =>
      obtain ⟨scan, hscan, -, -, hqueue, rfl⟩ := finish_spec hstep
      obtain ⟨rest, hlive, hset⟩ := live_setScan hscan
      have hempty : scan.queue = [] :=
        hqueue.resolve_right (by simp [haborted scan (List.mem_of_getElem? hscan)])
      refine h.mono ?_
      intro slot hslot
      rw [(hset _ w.flowState).mem_iff, Scan.live, ← hempty]
      exact hlive.mem_iff.mp hslot
  | clearBackoff =>
      obtain rfl := Option.some.inj hstep
      exact h.clearBackoff

/-! ## Active chains -/

/-- The chains that are active; a task that waits for a worker is none. -/
def ScanWorld.chains (w : ScanWorld) : List Chain := w.scans.flatMap Scan.active

/-- At most one chain of a flow is active. -/
def ScanWorld.Excludes (w : ScanWorld) : Prop := (w.chains.map Chain.flowKey).Nodup

theorem chains_sublist (scans : List Scan) :
    ((scans.flatMap Scan.active).map Chain.slot).Sublist (scans.flatMap Scan.live) := by
  induction scans with
  | nil => simp
  | cons scan scans ih =>
      rw [List.flatMap_cons, List.flatMap_cons, List.map_append]
      exact (List.sublist_append_right ..).append ih

/-- An active chain holds a slot, so chains are exclusive where slots are. -/
theorem excludes_of_nodup {w : ScanWorld} (h : (w.live.map Prod.fst).Nodup) : w.Excludes := by
  have hsub := (chains_sublist w.scans).map Prod.fst
  rw [List.map_map] at hsub
  exact h.sublist hsub

/-- Whenever slots are asked for or a handler settles, the chains in question were dispatched less
than the in-flight timeout ago. -/
def Brief (w : ScanWorld) : ScanEvent → Prop
  | .build flows _ => ∀ asked ∈ flows, ∀ chain ∈ w.chains,
      asked.2 - chain.dispatchedAt < w.flowState.opts.inFlightTimeoutMs
  | .settle i j _ now => ∀ scan ∈ w.scans[i]?, ∀ chain ∈ scan.active[j]?,
      now - chain.dispatchedAt < w.flowState.opts.inFlightTimeoutMs
  | _ => True

instance (w : ScanWorld) : DecidablePred (Brief w)
  | .build flows _ => inferInstanceAs (Decidable (∀ asked ∈ flows, ∀ chain ∈ w.chains,
      asked.2 - chain.dispatchedAt < w.flowState.opts.inFlightTimeoutMs))
  | .settle i j _ now => inferInstanceAs (Decidable (∀ scan ∈ w.scans[i]?,
      ∀ chain ∈ scan.active[j]?, now - chain.dispatchedAt < w.flowState.opts.inFlightTimeoutMs))
  | .dispatch _ _ => isTrue trivial
  | .abort _ => isTrue trivial
  | .finish _ => isTrue trivial
  | .clearBackoff => isTrue trivial

/-! ## Runs -/

section

variable {toBase58 : Pubkey → String} {opts : FlowStateTrackerOptions} {t : FlowStateTracker}
variable {room : Finset String} {w : ScanWorld} {ts : List (Transition ScanWorld ScanEvent)}

/-- What holds in a world that the given steps have led to. -/
structure Regular (ts : List (Transition ScanWorld ScanEvent)) (w : ScanWorld) : Prop where
  accounted : ∀ scan ∈ w.scans, scan.Accounted
  inOrder : (∀ tr ∈ ts, DocumentedStep tr.pre tr.act) →
    ∀ scan ∈ w.scans, ∀ chain ∈ scan.active, chain.InOrder

theorem regular_of_run
    (hrun : Run (fun w event w' => w.step toBase58 event = some w') ⟨t, []⟩ ts w) :
    Regular ts w := by
  induction hrun with
  | nil => exact ⟨by simp, by simp⟩
  | snoc _ hstep ih =>
      refine ⟨accounted_step ih.accounted hstep, ?_⟩
      intro hdoc
      rw [List.forall_mem_append, List.forall_mem_singleton] at hdoc
      exact inOrder_step (ih.inOrder hdoc.1) hstep hdoc.2

/-- And if no slot is asked for that was held too long. -/
structure Exclusive (room : Finset String) (ts : List (Transition ScanWorld ScanEvent))
    (w : ScanWorld) : Prop where
  holds : Holds w.flowState room w.live
  tight : (∀ tr ∈ ts, ¬ Leaks tr.act) →
    Tight w.flowState w.live ∧ ∀ scan ∈ w.scans, scan.aborted = false

theorem exclusive_start (hnew : FlowStateTracker.new opts = some t)
    (hcard : room.card ≤ t.states.max) : Exclusive room [] ⟨t, []⟩ := by
  have hidle := FlowStateTracker.inspect_new hnew
  have hkeys : ∀ flow ∈ t.states.keys, flow ∈ room := by
    intro flow hflow
    exact absurd hflow (BoundedMap.get_eq_none.mp (hidle flow))
  refine ⟨⟨List.nodup_nil, by simp [ScanWorld.live], hcard, hkeys⟩, ?_⟩
  intro _
  refine ⟨?_, by simp⟩
  intro flow startedAt attempts hinspect
  rw [hidle flow] at hinspect
  cases hinspect

theorem exclusive_of_run (hnew : FlowStateTracker.new opts = some t)
    (hcard : room.card ≤ t.states.max)
    (hrun : Run (fun w event w' => w.step toBase58 event = some w') ⟨t, []⟩ ts w)
    (hroom : ∀ tr ∈ ts, InRoom toBase58 room tr.act)
    (htimely : ∀ tr ∈ ts, Undelayed toBase58 tr.pre tr.act) : Exclusive room ts w := by
  induction hrun with
  | nil => exact exclusive_start hnew hcard
  | snoc _ hstep ih =>
      rw [List.forall_mem_append, List.forall_mem_singleton] at hroom htimely
      have hbefore := ih hroom.1 htimely.1
      refine ⟨holds_step hbefore.holds hstep hroom.2 htimely.2, ?_⟩
      intro hleaks
      rw [List.forall_mem_append, List.forall_mem_singleton] at hleaks
      obtain ⟨htight, haborted⟩ := hbefore.tight hleaks.1
      exact ⟨tight_step htight hbefore.holds haborted hstep hroom.2 hleaks.2,
        aborted_step haborted hstep hleaks.2⟩

/-- No flow gets a second slot if and only if none asks for one that was held too long. -/
theorem undelayed_iff_nodup (hnew : FlowStateTracker.new opts = some t)
    (hcard : room.card ≤ t.states.max)
    (hrun : Run (fun w event w' => w.step toBase58 event = some w') ⟨t, []⟩ ts w)
    (hroom : ∀ tr ∈ ts, InRoom toBase58 room tr.act) :
    (∀ tr ∈ ts, Undelayed toBase58 tr.pre tr.act) ↔
      ∀ tr ∈ ts, (tr.post.live.map Prod.fst).Nodup := by
  induction hrun with
  | nil => simp
  | @snoc u v event ts hrun hstep ih =>
      rw [List.forall_mem_append, List.forall_mem_singleton] at hroom
      rw [List.forall_mem_append, List.forall_mem_append, List.forall_mem_singleton,
        List.forall_mem_singleton, ← ih hroom.1]
      refine and_congr_right ?_
      intro htimely
      have hholds := (exclusive_of_run hnew hcard hrun hroom.1 htimely).holds
      exact ⟨fun hlast => (holds_step hholds hstep hroom.2 hlast).nodup,
        undelayed_of_nodup hholds hstep hroom.2⟩

end

/-! ## Two scans -/

def nameOf (key : Pubkey) : String := if key = Pubkey.default then "A" else "B"

/-- Two flows that wait for `receive`. -/
def waitingFlow : ScannedFlow := ⟨Pubkey.default, .pending, .deposit, "tx", []⟩
def otherFlow : ScannedFlow := ⟨tokenProgram, .pending, .deposit, "tx", []⟩

/-- A scan that lists a flow twice, with an error of its second leg. -/
def listedTwice : List ScanEvent :=
  [.build [(waitingFlow, 0), (waitingFlow, 1)] 2, .dispatch 0 2,
    .settle 0 0 (.returns (.advanced .received)) 3, .settle 0 0 (.returns (.error "rpc")) 4,
    .finish 0]

theorem room_nameOf (event : ScanEvent) : InRoom nameOf {"A", "B"} event := by
  cases event with
  | build flows _ =>
      intro flow _
      unfold nameOf
      split <;> simp
  | _ => trivial

/-- With one worker, `B` waits four minutes for `A`. Five minutes after it was listed it is listed
again, one minute into its dispatch. -/
def queuedBehind : List ScanEvent :=
  [.build [(waitingFlow, 0), (otherFlow, 0)] 1, .dispatch 0 0, .settle 0 0 (.returns .noop) 240000,
    .dispatch 0 240000, .build [(otherFlow, 300000)] 1, .dispatch 1 300000]

/-- What is left of the two scans. -/
def bothSettle : List ScanEvent :=
  [.settle 0 0 (.returns .noop) 310000, .settle 1 0 (.returns .noop) 320000, .finish 0, .finish 1]

end FogoYield.Cranker
