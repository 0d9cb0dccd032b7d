import FogoYield.Library.Run
import FogoYield.Model.Cranker.Bridge
import FogoYield.Model.Cranker.Reference
import FogoYield.Model.Relayer.Reference
import FogoYield.Verification.Cranker.Watermarks
import FogoYield.Verification.Sdk.Vaa

/-! # What the bridge redeemer delivers

A VAA whose inbox item is not released yet is met again by the next scan, as long as no scan
records more than the slack above it. Whatever is not an error is recorded. -/

namespace FogoYield.Cranker

open FogoYield.Library FogoYield.Solana FogoYield.Sdk
open FogoYield.Relayer (RelayerRuntime)

/-! ## Errors -/

/-- A turn of the SDK throws, or a submission, before the abort signal is seen. -/
def StepsFail : List SdkStep → Prop
  | [] => False
  | .throws :: _ => True
  | .yields true _ :: _ => False
  | .yields false none :: _ => True
  | .yields false (some _) :: steps => StepsFail steps

/-- The SDK's redeem of a VAA throws. -/
def SdkRedeem.Fails (sdk : SdkRedeem) : Prop :=
  sdk.deserializes = false ∨
    (sdk.isExecuted ≠ some true ∧ (sdk.ensuresRecipientAta = false ∨ StepsFail sdk.steps))

/-- The inbox item is missing, or waits for its release. -/
def Actionable (inboxInfo : Option Bytes) (now : ℤ) : Prop :=
  ∀ data, inboxInfo = some data → ∃ inbox, decodeNttInboxItem data = some inbox ∧
    (inbox.releaseStatus = .notApproved ∨
      ∃ timestamp, inbox.releaseStatus = .releaseAfter timestamp ∧ timestamp ≤ now)

/-- There is something to submit for the VAA and it cannot be submitted. -/
def RedeemFails (rt : RelayerRuntime) (onCurve : Pubkey → Bool) (target : BridgeRedeemTarget)
    (vaaBytes : Bytes) (prefetched : Option (Option Bytes)) (world : RedeemWorld) : Prop :=
  target.configReady = true ∧ ∃ resolved, resolveNttVaa rt vaaBytes target.destNttManagerProgramId
      (some target.destWhTransceiverProgramId) = .ok resolved ∧
    resolved.manager.toChain = target.destChainId ∧ resolved.fromChain = target.sourceChainId ∧
    ∃ inboxInfo, inboxInfo = prefetched.getD (world.getAccountInfo resolved.nttInboxItem).orNull ∧
      Actionable inboxInfo world.now ∧
      (onCurve resolved.recipientOnSolana = false ∨ (inboxInfo = none ∧ world.sdk.Fails) ∨
        (inboxInfo ≠ none ∧ world.sent = none))

theorem submitSteps_isError (steps : List SdkStep) (lastSig : Option String) :
    (submitSteps steps lastSig).isError = true ↔ StepsFail steps := by
  fun_induction submitSteps steps lastSig with
  | case6 lastSig sig steps ih => exact ih
  | _ => simp [StepsFail, BridgeRedeemResult.isError]

theorem executeSdkBundledRedeem_isError (sdk : SdkRedeem) :
    (executeSdkBundledRedeem sdk).isError = true ↔ sdk.Fails := by
  unfold executeSdkBundledRedeem SdkRedeem.Fails
  split
  · simp_all [BridgeRedeemResult.isError]
  · split
    · simp_all [BridgeRedeemResult.isError]
    · split
      · simp_all [BridgeRedeemResult.isError]
      · simp_all [submitSteps_isError]

/-- Whether what a plan comes to is an error. -/
def planFails (plan : Except BridgeError BridgePlan) (world : RedeemWorld) : Bool :=
  match plan with
  | .error _ => true
  | .ok plan => (executeBridgePlan plan world.sdk world.sent).isError

section PlanFails

variable {rt : RelayerRuntime} {onCurve : Pubkey → Bool} {target : BridgeRedeemTarget}
  {resolved : ResolvedNttVaa} {world : RedeemWorld}

@[simp] theorem planFails_error (err : BridgeError) : planFails (.error err) world = true := rfl

@[simp] theorem planFails_noop (reason : NoopReason) :
    planFails (.ok (.noop reason)) world = false := rfl

@[simp] theorem planFails_redeemAndRelease :
    planFails (.ok .redeemAndRelease) world = true ↔ world.sdk.Fails :=
  executeSdkBundledRedeem_isError world.sdk

@[simp] theorem planFails_releaseOnly (release : ReleaseInboundParams) :
    planFails (.ok (.releaseOnly release)) world = true ↔ world.sent = none := by
  unfold planFails executeBridgePlan
  cases world.sent <;> simp [BridgeRedeemResult.isError]

theorem planRelease_fails (inboxState : Option NttInboxItem) :
    planFails (planRelease rt onCurve target resolved inboxState) world = true ↔
      onCurve resolved.recipientOnSolana = false ∨ (inboxState = none ∧ world.sdk.Fails) ∨
        (inboxState ≠ none ∧ world.sent = none) := by
  unfold planRelease
  cases hcurve : onCurve resolved.recipientOnSolana with
  | false => simp [hcurve]
  | true => cases inboxState <;> simp [hcurve]

theorem planInbox_fails (inboxInfo : Option Bytes) :
    planFails (planInbox rt onCurve target resolved inboxInfo world.now) world = true ↔
      Actionable inboxInfo world.now ∧
      (onCurve resolved.recipientOnSolana = false ∨ (inboxInfo = none ∧ world.sdk.Fails) ∨
        (inboxInfo ≠ none ∧ world.sent = none)) := by
  cases inboxInfo with
  | none => simp [planInbox, planRelease_fails, Actionable]
  | some data =>
      cases hdecode : decodeNttInboxItem data with
      | none => simp [planInbox, hdecode, Actionable]
      | some inbox =>
          cases hstatus : inbox.releaseStatus with
          | released => simp [planInbox, hdecode, hstatus, Actionable]
          | notApproved => simp [planInbox, hdecode, hstatus, planRelease_fails, Actionable]
          | releaseAfter timestamp =>
              by_cases hgate : world.now < timestamp
              · simp [planInbox, hdecode, hstatus, hgate, Actionable]
              · simp [planInbox, hdecode, hstatus, hgate, planRelease_fails, Actionable,
                  not_lt.mp hgate]

/-- Only a VAA that can be acted on and whose submission fails is an error. -/
theorem planAndSubmit_isError (vaaBytes : Bytes) (prefetched : Option (Option Bytes)) :
    (planAndSubmit rt onCurve target vaaBytes prefetched world).isError = true ↔
      RedeemFails rt onCurve target vaaBytes prefetched world := by
  have hplan : (planAndSubmit rt onCurve target vaaBytes prefetched world).isError =
      planFails (planBridgeRedeem rt onCurve target vaaBytes prefetched world.getAccountInfo
        world.now) world := by
    unfold planAndSubmit
    split <;> rename_i heq <;> rw [heq] <;> rfl
  rw [hplan]
  unfold planBridgeRedeem RedeemFails
  cases hready : target.configReady with
  | false => simp
  | true =>
      cases hresolve : resolveNttVaa rt vaaBytes target.destNttManagerProgramId
          (some target.destWhTransceiverProgramId) with
      | error err => simp
      | ok resolved =>
          by_cases hto : resolved.manager.toChain = target.destChainId
          · by_cases hfrom : resolved.fromChain = target.sourceChainId
            · simp [hto, hfrom, planInbox_fails]
            · simp [hto, hfrom]
          · simp [hto]

end PlanFails

/-! ## Runs -/

/-- The accounts of the destination chain. -/
abbrev DestAccounts := Pubkey → Option Bytes

def Released (info : Option Bytes) : Prop :=
  ∃ data inbox, info = some data ∧ decodeNttInboxItem data = some inbox ∧
    inbox.releaseStatus = .released

/-- An inbox item that is released stays so. -/
def KeepsReleased (dest dest' : DestAccounts) : Prop :=
  ∀ key, Released (dest key) → Released (dest' key)

/-- One scan: what the target was found to be, its pages, what the workers meet, and the
destination when it is over. -/
structure BridgeScan where
  configReady : Bool
  configError : Option String
  paging : Paging
  batch : Option (Pubkey → Option Bytes)
  schedule : PoolSchedule WormholescanVaa
  world : WormholescanVaa → RedeemWorld
  dest : DestAccounts

structure BridgeState where
  vaas : List WormholescanVaa
  watermarks : WatermarkStore
  dest : DestAccounts

inductive BridgeEvent where
  | arrive (item : WormholescanVaa)
  | settle (dest : DestAccounts)
  | scan (scan : BridgeScan)

/-- What one leg of the redeemer is set up with. -/
structure BridgeLeg where
  rt : RelayerRuntime
  onCurve : Pubkey → Bool
  target : BridgeRedeemTarget

section Runs

variable (L : BridgeLeg)

def BridgeLeg.targetAt (scan : BridgeScan) : BridgeRedeemTarget :=
  { L.target with configReady := scan.configReady, configError := scan.configError }

def BridgeLeg.redeem (scan : BridgeScan) (st : BridgeState) : WatermarkStore :=
  scanAndRedeemBridge L.rt L.onCurve (L.targetAt scan) scan.paging.maxPages
    (scan.paging.source st.vaas) scan.batch scan.schedule scan.world st.watermarks

def BridgeLeg.mark (st : BridgeState) : ℕ :=
  st.watermarks.mark L.target.sourceChainId L.target.sourceEmitterHex

/-- The VAAs a scan yields. -/
def BridgeLeg.yields (scan : BridgeScan) (st : BridgeState) : List WormholescanVaa :=
  (harvestVaaPages st.watermarks L.target.sourceChainId L.target.sourceEmitterHex
    scan.paging.maxPages false (scan.paging.source st.vaas)).flatten

/-- VAAs arrive at the front of the list, the destination moves on by itself, and a scan moves the
watermark while it does. -/
def BridgeLeg.Step (st : BridgeState) (event : BridgeEvent) (st' : BridgeState) : Prop :=
  match event with
  | .arrive item => (∀ v ∈ st.vaas, v.sequence < item.sequence) ∧
      st' = { st with vaas := item :: st.vaas }
  | .settle dest => KeepsReleased st.dest dest ∧ st' = { st with dest := dest }
  | .scan scan => KeepsReleased st.dest scan.dest ∧
      st' = ⟨st.vaas, L.redeem scan st, scan.dest⟩

def initialBridge : BridgeState := ⟨[], fun _ => none, fun _ => none⟩

/-- The VAA is addressed to the destination and its inbox item not released. -/
def BridgeLeg.Undelivered (dest : DestAccounts) (x : WormholescanVaa) : Prop :=
  ∃ resolved, resolveNttVaa L.rt x.vaa L.target.destNttManagerProgramId
      (some L.target.destWhTransceiverProgramId) = .ok resolved ∧
    resolved.manager.toChain = L.target.destChainId ∧ ¬ Released (dest resolved.nttInboxItem)

/-- A scan in which every page is fetched yields every undelivered VAA within its pages. -/
def BridgeLeg.FindsUndelivered (st : BridgeState) : Prop :=
  ∀ scan : BridgeScan,
    (∀ page, scan.paging.fails page = false ∧ scan.paging.aborted page = false) →
    ∀ i x, st.vaas[i]? = some x → L.Undelivered st.dest x →
    i < scan.paging.pageSize * scan.paging.maxPages → x ∈ L.yields scan st

/-- The scan can get as far as the VAA at index `i`, a worker picks it up, and it does not fail
where there is something to submit. -/
def BridgeLeg.Settles (scan : BridgeScan) (i : ℕ) (r : WormholescanVaa) : Prop :=
  scan.paging.Reaches i ∧ i < scan.schedule.picked ∧
    ¬ RedeemFails L.rt L.onCurve (L.targetAt scan) r.vaa
      (prefetchInbox L.rt (L.targetAt scan) scan.batch r) (scan.world r)

/-- A VAA that the scan settles is less than the slack above everything newer than one that is
undelivered behind it. -/
def BridgeLeg.WithinSlack (tr : Transition BridgeState BridgeEvent) : Prop :=
  ∀ scan, tr.act = .scan scan → ∀ i r, tr.pre.vaas[i]? = some r → L.Settles scan i r →
    ∀ x ∈ tr.pre.vaas, L.Undelivered scan.dest x →
    ∀ y ∈ tr.pre.vaas, x.sequence < y.sequence → Clears r.sequence y.sequence

/-! ## Steps -/

variable {L} {ts : List (Transition BridgeState BridgeEvent)} {st st' : BridgeState}

theorem bridgeYields_eq (scan : BridgeScan) (st : BridgeState) : L.yields scan st =
    scan.paging.yields st.vaas (pagingFloor st.watermarks L.target.sourceChainId
      L.target.sourceEmitterHex) := rfl

theorem Undelivered.of_keeps {dest dest' : DestAccounts} {x : WormholescanVaa}
    (hkeeps : KeepsReleased dest dest') (h : L.Undelivered dest' x) : L.Undelivered dest x := by
  obtain ⟨resolved, hresolved, hto, hunreleased⟩ := h
  exact ⟨resolved, hresolved, hto, fun hreleased => hunreleased (hkeeps _ hreleased)⟩

/-- Whatever the order in which the workers finish, the watermark is the highest recorded. -/
theorem foldl_advances {records : WormholescanVaa → Bool} {chainId : ℕ} {emitter : String}
    (items : List WormholescanVaa) (store : WatermarkStore) :
    Advances (items.filter records) (store.mark chainId emitter)
      ((items.foldl (fun store v => if records v then recordSeen store chainId emitter v.sequence
        else store) store).mark chainId emitter) := by
  induction items generalizing store with
  | nil => exact .refl _
  | cons v items ih =>
      rw [List.foldl_cons, List.filter_cons]
      cases hv : records v with
      | true => exact (Advances.record store chainId emitter v).append (ih _)
      | false => exact ih store

/-- The VAAs a scan records. -/
def BridgeLeg.recorded (L : BridgeLeg) (scan : BridgeScan) (st : BridgeState) :
    List WormholescanVaa :=
  (scan.schedule.order ((L.yields scan st).take scan.schedule.picked)).filter
    (fun v => !(planAndSubmit L.rt L.onCurve (L.targetAt scan) v.vaa
      (prefetchInbox L.rt (L.targetAt scan) scan.batch v) (scan.world v)).isError)

theorem redeem_advances (scan : BridgeScan) (st : BridgeState) :
    Advances (L.recorded scan st) (L.mark st)
      ((L.redeem scan st).mark L.target.sourceChainId L.target.sourceEmitterHex) := by
  have hworker : L.redeem scan st =
      (scan.schedule.order ((L.yields scan st).take scan.schedule.picked)).foldl
        (fun store v => if !(planAndSubmit L.rt L.onCurve (L.targetAt scan) v.vaa
            (prefetchInbox L.rt (L.targetAt scan) scan.batch v) (scan.world v)).isError then
          recordSeen store L.target.sourceChainId L.target.sourceEmitterHex v.sequence
        else store) st.watermarks := by
    simp only [Bool.not_eq_true', ← Bool.not_eq_true, ite_not]
    rfl
  rw [hworker]
  exact foldl_advances _ st.watermarks

theorem mem_recorded {scan : BridgeScan} {r : WormholescanVaa} {i : ℕ}
    (hvaas : NewestFirst st.vaas) (hi : st.vaas[i]? = some r) :
    r ∈ L.recorded scan st ↔ r ∈ L.yields scan st ∧ L.Settles scan i r := by
  rw [BridgeLeg.recorded, List.mem_filter, (scan.schedule.order_perm _).mem_iff, bridgeYields_eq,
    Paging.mem_yields_take hvaas hi, Bool.not_eq_true', ← Bool.not_eq_true, planAndSubmit_isError]
  constructor
  · rintro ⟨⟨hmem, hpicked⟩, hfails⟩
    exact ⟨hmem, ((Paging.mem_yields hvaas hi).mp hmem).1, hpicked, hfails⟩
  · rintro ⟨hmem, -, hpicked, hfails⟩
    exact ⟨⟨hmem, hpicked⟩, hfails⟩

theorem mem_of_mem_recorded {scan : BridgeScan} {r : WormholescanVaa}
    (h : r ∈ L.recorded scan st) : r ∈ st.vaas := by
  have hmem := (scan.schedule.order_perm _).mem_iff.mp (List.mem_of_mem_filter h)
  exact Paging.mem_of_mem_yields (List.mem_of_mem_take hmem)

/-- What a scan settles is at or below the watermark it leaves. -/
theorem settles_le_mark {scan : BridgeScan} {r : WormholescanVaa} {i : ℕ}
    (hvaas : NewestFirst st.vaas) (hi : st.vaas[i]? = some r) (hr : L.Settles scan i r) :
    r.sequence ≤ (L.redeem scan st).mark L.target.sourceChainId L.target.sourceEmitterHex := by
  by_cases hmem : r ∈ L.yields scan st
  · exact (redeem_advances scan st).ge r ((mem_recorded hvaas hi).mpr ⟨hmem, hr⟩)
  · exact (Paging.le_mark_of_not_yields hvaas hi hr.1 hmem).trans (redeem_advances scan st).le

theorem bridge_step_ok {event : BridgeEvent} (h : FeedOk st.vaas (L.mark st))
    (hstep : L.Step st event st') : FeedOk st'.vaas (L.mark st') := by
  cases event with
  | arrive item =>
      obtain ⟨hnewest, rfl⟩ := hstep
      exact h.cons hnewest
  | settle dest =>
      obtain ⟨-, rfl⟩ := hstep
      exact h
  | scan scan =>
      obtain ⟨-, rfl⟩ := hstep
      exact h.advance (redeem_advances scan st) (fun r hr => mem_of_mem_recorded hr)

theorem bridge_run_ok (hr : Run L.Step initialBridge ts st) : FeedOk st.vaas (L.mark st) := by
  induction hr with
  | nil => exact .nil
  | snoc _ hstep ih => exact bridge_step_ok ih hstep

/-- Everything newer than an undelivered VAA clears the watermark. -/
def BridgeLeg.ClearsUndelivered (L : BridgeLeg) (st : BridgeState) : Prop :=
  InSight (L.Undelivered st.dest) st.vaas (L.mark st)

/-- The undelivered VAAs are found exactly if everything newer clears the watermark. -/
theorem findsUndelivered_iff (hvaas : NewestFirst st.vaas) :
    L.FindsUndelivered st ↔ L.ClearsUndelivered st := by
  rw [BridgeLeg.ClearsUndelivered, BridgeLeg.mark, ← inSight_iff hvaas]
  constructor
  · intro hfinds scan hpages i x hi hopen hmax
    let world : RedeemWorld := ⟨fun _ => .absent, 0, ⟨true, none, true, []⟩, none⟩
    exact hfinds ⟨true, none, scan, none, ⟨0, id, fun _ => .refl _⟩, fun _ => world, st.dest⟩
      hpages i x hi hopen hmax
  · intro hfinds scan hpages i x hi hopen hmax
    exact hfinds scan.paging hpages i x hi hopen hmax

/-- A scan keeps the undelivered VAAs in sight exactly if it records within the slack. -/
theorem redeem_clears_iff {scan : BridgeScan} (hvaas : NewestFirst st.vaas)
    (h : L.ClearsUndelivered st) (hstep : L.Step st (.scan scan) st') :
    L.ClearsUndelivered st' ↔ L.WithinSlack ⟨st, .scan scan, st'⟩ := by
  obtain ⟨hkeeps, rfl⟩ := hstep
  have hopens : ∀ x ∈ st.vaas, L.Undelivered scan.dest x → L.Undelivered st.dest x :=
    fun x _ hx => Undelivered.of_keeps hkeeps hx
  have hle : ∀ r ∈ st.vaas, (∃ i, st.vaas[i]? = some r ∧ L.Settles scan i r) → r.sequence ≤
      (L.redeem scan st).mark L.target.sourceChainId L.target.sourceEmitterHex := by
    rintro r - ⟨i, hi, hr⟩
    exact settles_le_mark hvaas hi hr
  have hattained : (L.redeem scan st).mark L.target.sourceChainId L.target.sourceEmitterHex =
        L.mark st ∨
      ∃ r ∈ st.vaas, (∃ i, st.vaas[i]? = some r ∧ L.Settles scan i r) ∧ r.sequence =
        (L.redeem scan st).mark L.target.sourceChainId L.target.sourceEmitterHex := by
    rcases (redeem_advances scan st).attained with heq | ⟨r, hr, heq⟩
    · exact .inl heq
    · have hin := mem_of_mem_recorded hr
      obtain ⟨i, hi⟩ := List.mem_iff_getElem?.mp hin
      exact .inr ⟨r, hin, ⟨i, hi, ((mem_recorded hvaas hi).mp hr).2⟩, heq⟩
  refine (InSight.advance_iff h hopens hle hattained).trans ?_
  constructor
  · intro hsight _ hscan i r hi hr
    obtain rfl := BridgeEvent.scan.inj hscan
    exact hsight r (List.mem_of_getElem? hi) ⟨i, hi, hr⟩
  · rintro hslack r - ⟨i, hi, hr⟩
    exact hslack scan rfl i r hi hr

/-! ## Delivery -/

theorem bridge_run_clears (hr : Run L.Step initialBridge ts st)
    (hslack : ∀ tr ∈ ts, L.WithinSlack tr) : L.ClearsUndelivered st := by
  induction hr with
  | nil =>
      intro x hx
      cases hx
  | @snoc w w' event ts hr hstep ih =>
      have hclears := ih (fun tr htr => hslack tr (List.mem_append_left _ htr))
      cases event with
      | arrive item =>
          obtain ⟨hnewest, rfl⟩ := hstep
          exact InSight.cons hclears (bridge_run_ok hr) hnewest (fun _ _ hx => hx)
      | settle dest =>
          obtain ⟨hkeeps, rfl⟩ := hstep
          exact fun x hx hopen => hclears x hx (Undelivered.of_keeps hkeeps hopen)
      | scan scan =>
          exact (redeem_clears_iff (bridge_run_ok hr).newestFirst hclears hstep).mpr
            (hslack _ (by simp))

/-- Along a run every undelivered VAA stays within the next scan, exactly if every scan of the run
records within the slack. -/
theorem bridge_delivers_iff (hr : Run L.Step initialBridge ts st) :
    (∀ before after w, ts = before ++ after → Run L.Step initialBridge before w →
      L.FindsUndelivered w) ↔ ∀ tr ∈ ts, L.WithinSlack tr := by
  constructor
  · rintro hfinds ⟨w, event, w'⟩ htr
    obtain ⟨before, after, rfl⟩ := List.append_of_mem htr
    obtain ⟨hbefore, hstep, -⟩ := hr.split
    have hvaas := (bridge_run_ok hbefore).newestFirst
    have hclears := (findsUndelivered_iff hvaas).mp (hfinds before _ w rfl hbefore)
    cases event with
    | arrive item =>
        intro scan hscan
        cases hscan
    | settle dest =>
        intro scan hscan
        cases hscan
    | scan scan =>
        refine (redeem_clears_iff hvaas hclears hstep).mp ?_
        have hafter := hbefore.snoc hstep
        exact (findsUndelivered_iff (bridge_run_ok hafter).newestFirst).mp
          (hfinds _ after w' (by simp) hafter)
  · rintro hslack before after w rfl hbefore
    rw [findsUndelivered_iff (bridge_run_ok hbefore).newestFirst]
    exact bridge_run_clears hbefore (fun tr htr => hslack tr (List.mem_append_left _ htr))

end Runs

/-! ## A burst -/

/-- VAAs can arrive in any number before the first scan. -/
theorem bridge_run_arrivals (L : BridgeLeg) {vaas : List WormholescanVaa} (h : NewestFirst vaas) :
    ∃ ts, Run L.Step initialBridge ts ⟨vaas, fun _ => none, fun _ => none⟩ ∧
      ∀ tr ∈ ts, ∃ item, tr.act = .arrive item := by
  refine run_of_pairwise (fun vaas => (⟨vaas, fun _ => none, fun _ => none⟩ : BridgeState))
    BridgeEvent.arrive ?_ h
  exact fun _ _ hnewest => ⟨hnewest, rfl⟩

def bridgeLeg : BridgeLeg where
  rt := Relayer.referenceBase
  onCurve _ := true
  target := {
    sourceChainId := 1
    sourceEmitterHex := "0000000000000000000000000000000000000000000000000000000000005001"
    destChainId := 51
    destNttManagerProgramId := Relayer.nttOnycProgram
    destWhTransceiverProgramId := Relayer.nttOnycProgram
    destMint := Relayer.onycMint
    destSigner := Relayer.user
    destReleaseMode := .burning
    configReady := true
    configError := none }

/-- Pages of two VAAs, and a bridge SDK that cannot submit. -/
def outageScan : BridgeScan where
  configReady := true
  configError := none
  paging := ⟨2, 5, fun _ => false, fun _ => false⟩
  batch := some (fun _ => none)
  schedule := ⟨9, id, fun _ => .refl _⟩
  world _ := ⟨fun _ => .absent, 0, ⟨true, some false, true, [.throws]⟩, none⟩
  dest _ := none

/-- Transfers to the destination, behind a newer one to another chain. -/
def mixedFeed (newest : UInt64) (rest : List UInt64) : List WormholescanVaa :=
  feedVaa 1 2 newest :: rest.map (feedVaa 1 51)

theorem feedVaa_resolves (fromChain toChain : UInt16) (sequence : UInt64) : ∃ resolved,
    resolveNttVaa bridgeLeg.rt (feedVaa fromChain toChain sequence).vaa
      bridgeLeg.target.destNttManagerProgramId
      (some bridgeLeg.target.destWhTransceiverProgramId) = .ok resolved ∧
    resolved.manager.toChain = toChain.toNat ∧ resolved.fromChain = fromChain.toNat := by
  obtain ⟨resolved, hresolved, hmanager, hfrom, -⟩ := resolveNttVaa_wire bridgeLeg.rt
    (feedEnvelope sequence) (feedMessage fromChain toChain sequence)
    bridgeLeg.target.destNttManagerProgramId (some bridgeLeg.target.destWhTransceiverProgramId)
  exact ⟨resolved, hresolved, by rw [hmanager]; rfl, hfrom⟩

/-- The outage is an error for what goes to the destination, and for nothing else. -/
theorem outage_redeemFails (toChain : UInt16) (sequence : UInt64) :
    RedeemFails bridgeLeg.rt bridgeLeg.onCurve (bridgeLeg.targetAt outageScan)
      (feedVaa 1 toChain sequence).vaa
      (prefetchInbox bridgeLeg.rt (bridgeLeg.targetAt outageScan) outageScan.batch
        (feedVaa 1 toChain sequence))
      (outageScan.world (feedVaa 1 toChain sequence)) ↔ toChain = 51 := by
  obtain ⟨resolved, hresolved, hto, hfrom⟩ := feedVaa_resolves 1 toChain sequence
  constructor
  · rintro ⟨-, resolved', hresolved', hdest, -⟩
    obtain rfl := Except.ok.inj (hresolved.symm.trans hresolved')
    exact UInt16.toNat_inj.mp (hto.symm.trans hdest)
  · rintro rfl
    have hprefetched : prefetchInbox bridgeLeg.rt (bridgeLeg.targetAt outageScan)
        outageScan.batch (feedVaa 1 51 sequence) = some none := by
      simp only [prefetchInbox, outageScan, BridgeLeg.targetAt, hresolved]
    refine ⟨rfl, resolved, hresolved, hto, hfrom, none, ?_, ?_, .inr (.inl ⟨rfl, ?_⟩)⟩
    · rw [hprefetched]
      rfl
    · intro data hdata
      cases hdata
    · exact .inr ⟨by simp [outageScan], .inr trivial⟩

theorem feedVaa_undelivered (sequence : UInt64) :
    bridgeLeg.Undelivered (fun _ => none) (feedVaa 1 51 sequence) := by
  obtain ⟨resolved, hresolved, hto, -⟩ := feedVaa_resolves 1 51 sequence
  refine ⟨resolved, hresolved, hto, ?_⟩
  rintro ⟨data, inbox, hdata, -⟩
  cases hdata

/-- The state after a feed has arrived and was scanned in the outage. -/
def outageScanned (vaas : List WormholescanVaa) : BridgeState :=
  ⟨vaas, bridgeLeg.redeem outageScan ⟨vaas, fun _ => none, fun _ => none⟩, fun _ => none⟩

theorem outageScanned_watermarks (vaas : List WormholescanVaa) : (outageScanned vaas).watermarks =
    bridgeLeg.redeem outageScan ⟨vaas, fun _ => none, fun _ => none⟩ := rfl

theorem outage_step (vaas : List WormholescanVaa) :
    bridgeLeg.Step ⟨vaas, fun _ => none, fun _ => none⟩ (.scan outageScan) (outageScanned vaas) :=
  ⟨fun _ h => h, rfl⟩

/-- What the outage settles is the newest VAA, which goes elsewhere. -/
theorem outage_settles {newest : UInt64} {rest : List UInt64} {i : ℕ} {r : WormholescanVaa}
    (hi : (mixedFeed newest rest)[i]? = some r) (hr : bridgeLeg.Settles outageScan i r) :
    r = feedVaa 1 2 newest := by
  rcases List.mem_cons.mp (List.mem_of_getElem? hi) with rfl | hr'
  · rfl
  · obtain ⟨n, -, rfl⟩ := List.mem_map.mp hr'
    exact absurd ((outage_redeemFails 51 n).mpr rfl) hr.2.2

/-- Behind a VAA within the first five the ones that failed are found again. -/
theorem bridge_delivers_outage : ∃ ts,
    Run bridgeLeg.Step initialBridge ts (outageScanned (mixedFeed 4 [3, 2, 1])) ∧
    bridgeLeg.FindsUndelivered (outageScanned (mixedFeed 4 [3, 2, 1])) := by
  have hvaas : NewestFirst (mixedFeed 4 [3, 2, 1]) := by simp [mixedFeed, NewestFirst, feedVaa]
  obtain ⟨ts, hr, hacts⟩ := bridge_run_arrivals bridgeLeg hvaas
  have hrun := hr.snoc (outage_step _)
  refine ⟨_, hrun, (bridge_delivers_iff hrun).mpr ?_ _ [] _ (by simp) hrun⟩
  intro tr htr scan hscan i r hi hsettles _ _ _ _ _ _
  rcases List.mem_append.mp htr with htr | htr
  · obtain ⟨item, hitem⟩ := hacts tr htr
    cases hscan.symm.trans hitem
  · obtain rfl := List.mem_singleton.mp htr
    obtain rfl := BridgeEvent.scan.inj hscan
    rw [outage_settles hi hsettles]
    exact .inl (by decide)

/-- After a scan in which VAA 9, to another chain, is passed over and the redeem of every other one
fails, the next scan ends at a page before VAA 1. -/
theorem undelivered_vaa_cut_off : ∃ ts,
    Run bridgeLeg.Step initialBridge ts (outageScanned (mixedFeed 9 [8, 7, 6, 5, 4, 3, 2, 1])) ∧
    (mixedFeed 9 [8, 7, 6, 5, 4, 3, 2, 1])[8]? = some (feedVaa 1 51 1) ∧
    bridgeLeg.Undelivered (fun _ => none) (feedVaa 1 51 1) ∧
    8 < outageScan.paging.pageSize * outageScan.paging.maxPages ∧
    (∀ page, outageScan.paging.fails page = false ∧ outageScan.paging.aborted page = false) ∧
    feedVaa 1 51 1 ∉
      bridgeLeg.yields outageScan (outageScanned (mixedFeed 9 [8, 7, 6, 5, 4, 3, 2, 1])) := by
  have hvaas : NewestFirst (mixedFeed 9 [8, 7, 6, 5, 4, 3, 2, 1]) := by
    simp [mixedFeed, NewestFirst, feedVaa]
  obtain ⟨ts, hr, -⟩ := bridge_run_arrivals bridgeLeg hvaas
  have hone : (mixedFeed 9 [8, 7, 6, 5, 4, 3, 2, 1])[8]? = some (feedVaa 1 51 1) := rfl
  refine ⟨_, hr.snoc (outage_step _), hone, feedVaa_undelivered 1, by decide,
    fun _ => ⟨rfl, rfl⟩, ?_⟩
  -- VAA 9 is recorded, so that the page of the VAAs 3 and 2 is at the floor
  have hsettles : bridgeLeg.Settles outageScan 0 (feedVaa 1 2 9) :=
    ⟨⟨by decide, by decide, fun _ _ => ⟨rfl, rfl⟩⟩, by decide,
      (outage_redeemFails 2 9).not.mpr (by decide)⟩
  have hfirst : (mixedFeed 9 [8, 7, 6, 5, 4, 3, 2, 1])[0]? = some (feedVaa 1 2 9) := rfl
  have hnine := settles_le_mark (bridge_run_ok hr).newestFirst hfirst hsettles
  rw [← outageScanned_watermarks] at hnine
  intro hmem
  have hpages : 3 < 8 / outageScan.paging.pageSize := by decide
  rw [bridgeYields_eq] at hmem
  obtain ⟨v, hv, hclears⟩ := Paging.clears_of_yields hvaas hone hmem hpages
  have hpage : v = feedVaa 1 51 3 ∨ v = feedVaa 1 51 2 := by
    simpa [mixedFeed, feedPage, outageScan] using hv
  have hle : v.sequence ≤ 3 := by
    rcases hpage with rfl | rfl <;> decide
  have hlow := hclears.mono hnine hle
  revert hlow
  decide

end FogoYield.Cranker
