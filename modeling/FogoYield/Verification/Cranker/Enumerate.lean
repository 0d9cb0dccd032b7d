import FogoYield.Library.Run
import FogoYield.Model.Cranker.Enumerate
import FogoYield.Model.Cranker.Reference
import FogoYield.Model.Relayer.Reference
import FogoYield.Verification.Cranker.Watermarks
import FogoYield.Verification.Sdk.Vaa

/-! # The incremental flow scanner

A VAA that no scan resolved cleanly is found by the next scan, as long as no scan records more
than the slack above it. -/

namespace FogoYield.Cranker

open FogoYield.Library FogoYield.Solana FogoYield.Sdk
open FogoYield.Relayer (RelayerRuntime)

/-! ## Resolutions -/

/-- The VAA is one of the program, and the fetch of its flow fails. -/
def FetchFails (rt : RelayerRuntime) (nttProgramId : Pubkey) (terminalCache : Pubkey → Bool)
    (reads : VaaReads) (item : WormholescanVaa) : Prop :=
  ∃ resolved, resolveNttVaa rt item.vaa nttProgramId none = .ok resolved ∧
    terminalCache resolved.nttInboxItem = false ∧ reads.flow resolved.nttInboxItem = .rpcError

/-- Only a failed fetch of the flow keeps a VAA from being recorded. -/
theorem recordable_iff {rt : RelayerRuntime} {leg : VaaLeg} {nttProgramId recvMint : Pubkey}
    {terminalCache : Pubkey → Bool} {reads : VaaReads} {item : WormholescanVaa} :
    (scanWormholescanVaa rt leg nttProgramId recvMint terminalCache reads item).recordable =
      true ↔ ¬ FetchFails rt nttProgramId terminalCache reads item := by
  unfold scanWormholescanVaa FetchFails
  cases hr : resolveNttVaa rt item.vaa nttProgramId none with
  | error e => simp
  | ok resolved =>
      cases hc : terminalCache resolved.nttInboxItem with
      | true => simp [hc]
      | false => cases hf : reads.flow resolved.nttInboxItem <;> simp [hc, hf]

theorem scan_sequence (rt : RelayerRuntime) (leg : VaaLeg) (nttProgramId recvMint : Pubkey)
    (terminalCache : Pubkey → Bool) (reads : VaaReads) (item : WormholescanVaa) :
    (scanWormholescanVaa rt leg nttProgramId recvMint terminalCache reads item).sequence =
      item.sequence := by
  unfold scanWormholescanVaa
  split
  · rfl
  · dsimp only
    split
    · rfl
    · split <;> rfl

/-! ## One harvest -/

section Harvest

variable {opts : EnumerateOptions} {emitterHex : String}
  {resolve : WormholescanVaa → VaaResolution}

def HarvestResult.mark (out : HarvestResult) (opts : EnumerateOptions) (emitterHex : String) : ℕ :=
  out.watermarks.mark opts.fogoWormholeChainId emitterHex

theorem recordResolutions_advances (hopts : opts.bypassWatermark = false)
    (hseq : ∀ v, (resolve v).sequence = v.sequence) (items : List WormholescanVaa)
    (out : HarvestResult) :
    Advances (items.filter (fun v => (resolve v).recordable)) (out.mark opts emitterHex)
      ((recordResolutions opts emitterHex (items.map resolve) out).mark opts emitterHex) := by
  induction items generalizing out with
  | nil => exact .refl _
  | cons v items ih =>
      rw [List.map_cons, recordResolutions]
      cases hv : (resolve v).recordable with
      | true =>
          simp only [hv, hopts, hseq, List.filter_cons, if_true, Bool.false_eq_true,
            not_false_iff, and_self]
          exact (Advances.record out.watermarks _ emitterHex v).append (ih
            ⟨recordSeen out.watermarks opts.fogoWormholeChainId emitterHex v.sequence,
              out.flows ++ (resolve v).flow.toList⟩)
      | false =>
          simp only [hv, List.filter_cons, Bool.false_eq_true, false_and, if_false]
          exact ih ⟨out.watermarks, out.flows ++ (resolve v).flow.toList⟩

theorem consumePages_advances (hopts : opts.bypassWatermark = false)
    (hseq : ∀ v, (resolve v).sequence = v.sequence) (pages : List (List WormholescanVaa))
    (page : ℕ) (out : HarvestResult) :
    Advances (pages.flatten.filter (fun v => (resolve v).recordable)) (out.mark opts emitterHex)
      ((consumePages opts emitterHex resolve (fun _ => false) pages page out).mark opts
        emitterHex) := by
  induction pages generalizing page out with
  | nil => exact .refl _
  | cons items pages ih =>
      rw [List.flatten_cons, List.filter_append]
      exact (recordResolutions_advances hopts hseq items out).append (ih (page + 1) _)

end Harvest

/-! ## Runs -/

/-- One incremental scan: its pages, and what the reads and the memo of closed flows say when each
VAA is looked at. A scan that is aborted at a page leaves what one leaves whose page fails. -/
structure IncrementalScan where
  pageSize : ℕ
  maxPages : ℕ
  fails : ℕ → Bool
  terminalCache : WormholescanVaa → Pubkey → Bool
  reads : WormholescanVaa → VaaReads

def IncrementalScan.paging (scan : IncrementalScan) : Paging where
  pageSize := scan.pageSize
  maxPages := scan.maxPages
  fails := scan.fails
  aborted _ := false

/-- The feed of one emitter, and the watermarks. -/
structure FeedState where
  vaas : List WormholescanVaa
  watermarks : WatermarkStore

inductive FeedEvent where
  | arrive (item : WormholescanVaa)
  | scan (scan : IncrementalScan)

/-- What one leg of the enumerator is set up with. -/
structure EnumeratorLeg where
  rt : RelayerRuntime
  chainId : ℕ
  emitterHex : String
  leg : VaaLeg
  nttProgramId : Pubkey
  recvMint : Pubkey

section Runs

variable (L : EnumeratorLeg)

def EnumeratorLeg.resolve (scan : IncrementalScan) (item : WormholescanVaa) : VaaResolution :=
  scanWormholescanVaa L.rt L.leg L.nttProgramId L.recvMint (scan.terminalCache item)
    (scan.reads item) item

def EnumeratorLeg.options (scan : IncrementalScan) : EnumerateOptions :=
  ⟨L.chainId, scan.pageSize, scan.maxPages, false⟩

def EnumeratorLeg.harvest (scan : IncrementalScan) (st : FeedState) : HarvestResult :=
  Cranker.harvest (L.options scan) L.emitterHex (scan.paging.source st.vaas) (L.resolve scan)
    (fun _ => false) st.watermarks

def EnumeratorLeg.mark (st : FeedState) : ℕ := st.watermarks.mark L.chainId L.emitterHex

/-- The VAAs a scan yields. -/
def EnumeratorLeg.yields (scan : IncrementalScan) (st : FeedState) : List WormholescanVaa :=
  (harvestVaaPages st.watermarks L.chainId L.emitterHex scan.maxPages false
    (scan.paging.source st.vaas)).flatten

/-- VAAs arrive at the front of the list; a scan moves the watermark. -/
def EnumeratorLeg.Step (st : FeedState) (event : FeedEvent) (st' : FeedState) : Prop :=
  match event with
  | .arrive item => (∀ v ∈ st.vaas, v.sequence < item.sequence) ∧
      st' = { st with vaas := item :: st.vaas }
  | .scan scan => st' = { st with watermarks := (L.harvest scan st).watermarks }

def initialFeed : FeedState := ⟨[], fun _ => none⟩

/-- The transition is a scan that resolved the VAA with `recordable = true`. -/
def EnumeratorLeg.Resolved (tr : Transition FeedState FeedEvent) (x : WormholescanVaa) : Prop :=
  ∃ scan, tr.act = .scan scan ∧ x ∈ L.yields scan tr.pre ∧ (L.resolve scan x).recordable = true

/-- No transition resolved the VAA. -/
def EnumeratorLeg.Unresolved (ts : List (Transition FeedState FeedEvent)) (x : WormholescanVaa) :
    Prop := ∀ tr ∈ ts, ¬ L.Resolved tr x

/-- A scan in which no page fails yields every unresolved VAA within its pages. -/
def EnumeratorLeg.FindsUnresolved (ts : List (Transition FeedState FeedEvent)) (st : FeedState) :
    Prop :=
  ∀ scan : IncrementalScan, (∀ page, scan.fails page = false) → ∀ i x, st.vaas[i]? = some x →
    L.Unresolved ts x → i < scan.pageSize * scan.maxPages → x ∈ L.yields scan st

/-- The scan can get as far as the VAA at index `i`, and the fetch of its flow does not fail. -/
def EnumeratorLeg.Observes (scan : IncrementalScan) (i : ℕ) (x : WormholescanVaa) : Prop :=
  scan.paging.Reaches i ∧
    ¬ FetchFails L.rt L.nttProgramId (scan.terminalCache x) (scan.reads x) x

/-- A VAA that the scan observes is less than the slack above everything newer than an unresolved
one that it does not. -/
def EnumeratorLeg.WithinSlack (before : List (Transition FeedState FeedEvent))
    (tr : Transition FeedState FeedEvent) : Prop :=
  ∀ scan, tr.act = .scan scan → ∀ i r, tr.pre.vaas[i]? = some r → L.Observes scan i r →
    ∀ j x, tr.pre.vaas[j]? = some x → L.Unresolved before x → ¬ L.Observes scan j x →
    ∀ y ∈ tr.pre.vaas, x.sequence < y.sequence → Clears r.sequence y.sequence

/-! ## Steps -/

variable {L} {ts : List (Transition FeedState FeedEvent)} {st st' : FeedState}

theorem yields_eq (scan : IncrementalScan) (st : FeedState) : L.yields scan st =
    scan.paging.yields st.vaas (pagingFloor st.watermarks L.chainId L.emitterHex) := rfl

/-- Everything newer than an unresolved VAA clears the watermark. -/
def EnumeratorLeg.ClearsUnresolved (L : EnumeratorLeg)
    (ts : List (Transition FeedState FeedEvent)) (st : FeedState) : Prop :=
  InSight (L.Unresolved ts) st.vaas (L.mark st)

/-- The unresolved VAAs are found exactly if everything newer clears the watermark. -/
theorem findsUnresolved_iff (hvaas : NewestFirst st.vaas) :
    L.FindsUnresolved ts st ↔ L.ClearsUnresolved ts st := by
  rw [EnumeratorLeg.ClearsUnresolved, EnumeratorLeg.mark, ← inSight_iff hvaas]
  constructor
  · intro hfinds scan hpages i x hi hopen hmax
    let reads : VaaReads := ⟨fun _ => .missing, fun _ => .absent, fun _ => .absent⟩
    have hfound := hfinds ⟨scan.pageSize, scan.maxPages, scan.fails, fun _ _ => false,
      fun _ => reads⟩ (fun page => (hpages page).1) i x hi hopen hmax
    rw [yields_eq] at hfound
    have hscan : scan = ⟨scan.pageSize, scan.maxPages, scan.fails, fun _ => false⟩ := by
      rw [← funext (fun page => (hpages page).2)]
    rw [hscan]
    exact hfound
  · intro hfinds scan hfails i x hi hopen hmax
    exact hfinds scan.paging (fun page => ⟨hfails page, rfl⟩) i x hi hopen hmax

theorem harvest_advances (scan : IncrementalScan) (st : FeedState) :
    Advances ((L.yields scan st).filter (fun v => (L.resolve scan v).recordable)) (L.mark st)
      ((L.harvest scan st).watermarks.mark L.chainId L.emitterHex) := by
  have hopts : (L.options scan).bypassWatermark = false := rfl
  exact consumePages_advances hopts (fun v => scan_sequence _ _ _ _ _ _ v) _ 0 ⟨st.watermarks, []⟩

theorem step_ok {event : FeedEvent} (h : FeedOk st.vaas (L.mark st))
    (hstep : L.Step st event st') : FeedOk st'.vaas (L.mark st') := by
  cases event with
  | arrive item =>
      obtain ⟨hnewest, rfl⟩ := hstep
      exact h.cons hnewest
  | scan scan =>
      obtain rfl : st' = _ := hstep
      refine h.advance (harvest_advances scan st) ?_
      intro r hr
      exact Paging.mem_of_mem_yields (List.mem_of_mem_filter hr)

theorem run_ok (hr : Run L.Step initialFeed ts st) : FeedOk st.vaas (L.mark st) := by
  induction hr with
  | nil => exact .nil
  | snoc _ hstep ih => exact step_ok ih hstep

theorem unresolved_snoc {tr : Transition FeedState FeedEvent} {x : WormholescanVaa} :
    L.Unresolved (ts ++ [tr]) x ↔ L.Unresolved ts x ∧ ¬ L.Resolved tr x := by
  simp only [EnumeratorLeg.Unresolved, List.mem_append, List.mem_singleton]
  constructor
  · exact fun h => ⟨fun t ht => h t (.inl ht), h tr (.inr rfl)⟩
  · rintro ⟨hts, htr⟩ t (ht | rfl)
    · exact hts t ht
    · exact htr

theorem resolved_iff {scan : IncrementalScan} {x : WormholescanVaa} {i : ℕ}
    (hvaas : NewestFirst st.vaas) (hx : st.vaas[i]? = some x) :
    L.Resolved ⟨st, .scan scan, st'⟩ x ↔ x ∈ L.yields scan st ∧ L.Observes scan i x := by
  constructor
  · rintro ⟨_, hscan, hmem, hrec⟩
    obtain rfl := FeedEvent.scan.inj hscan
    exact ⟨hmem, ((Paging.mem_yields hvaas hx).mp hmem).1, recordable_iff.mp hrec⟩
  · rintro ⟨hmem, -, hfetch⟩
    exact ⟨scan, rfl, hmem, recordable_iff.mpr hfetch⟩

/-- What a scan observes is at or below the watermark it leaves. -/
theorem observes_le_mark {scan : IncrementalScan} {r : WormholescanVaa} {i : ℕ}
    (hvaas : NewestFirst st.vaas) (hi : st.vaas[i]? = some r) (hr : L.Observes scan i r) :
    r.sequence ≤ (L.harvest scan st).watermarks.mark L.chainId L.emitterHex := by
  by_cases hmem : r ∈ L.yields scan st
  · exact (harvest_advances scan st).ge r
      (List.mem_filter.mpr ⟨hmem, recordable_iff.mpr hr.2⟩)
  · exact (Paging.le_mark_of_not_yields hvaas hi hr.1 hmem).trans (harvest_advances scan st).le

/-- With the unresolved VAAs in sight, a scan leaves unresolved what it does not observe. -/
theorem unresolved_scan_iff {scan : IncrementalScan} {x : WormholescanVaa} {j : ℕ}
    (hvaas : NewestFirst st.vaas) (h : L.ClearsUnresolved ts st) (hj : st.vaas[j]? = some x) :
    L.Unresolved (ts ++ [⟨st, .scan scan, st'⟩]) x ↔
      L.Unresolved ts x ∧ ¬ L.Observes scan j x := by
  rw [unresolved_snoc, resolved_iff hvaas hj]
  refine and_congr_right (fun hopen => not_congr (and_iff_right_of_imp ?_))
  intro hobserved
  exact Paging.yields_of_clears hvaas hj hobserved.1 (h x (List.mem_of_getElem? hj) hopen)

/-- A scan keeps the unresolved VAAs in sight exactly if it records within the slack. -/
theorem scan_clears_iff {scan : IncrementalScan} (hvaas : NewestFirst st.vaas)
    (h : L.ClearsUnresolved ts st) (hstep : L.Step st (.scan scan) st') :
    L.ClearsUnresolved (ts ++ [⟨st, .scan scan, st'⟩]) st' ↔
      L.WithinSlack ts ⟨st, .scan scan, st'⟩ := by
  have hlist : st'.vaas = st.vaas := by rw [show st' = _ from hstep]
  have hmark : L.mark st' = (L.harvest scan st).watermarks.mark L.chainId L.emitterHex := by
    rw [show st' = _ from hstep]
    rfl
  have hopens : ∀ x ∈ st.vaas, L.Unresolved (ts ++ [⟨st, .scan scan, st'⟩]) x →
      L.Unresolved ts x := fun x _ hx => (unresolved_snoc.mp hx).1
  have hle : ∀ r ∈ st.vaas, (∃ i, st.vaas[i]? = some r ∧ L.Observes scan i r) →
      r.sequence ≤ (L.harvest scan st).watermarks.mark L.chainId L.emitterHex := by
    rintro r - ⟨i, hi, hr⟩
    exact observes_le_mark hvaas hi hr
  have hattained : (L.harvest scan st).watermarks.mark L.chainId L.emitterHex = L.mark st ∨
      ∃ r ∈ st.vaas, (∃ i, st.vaas[i]? = some r ∧ L.Observes scan i r) ∧
        r.sequence = (L.harvest scan st).watermarks.mark L.chainId L.emitterHex := by
    rcases (harvest_advances scan st).attained with heq | ⟨r, hr, heq⟩
    · exact .inl heq
    · obtain ⟨hmem, hrec⟩ := List.mem_filter.mp hr
      have hin := Paging.mem_of_mem_yields hmem
      obtain ⟨i, hi⟩ := List.mem_iff_getElem?.mp hin
      exact .inr ⟨r, hin, ⟨i, hi, ((Paging.mem_yields hvaas hi).mp hmem).1,
        recordable_iff.mp hrec⟩, heq⟩
  rw [EnumeratorLeg.ClearsUnresolved, hlist, hmark, InSight.advance_iff h hopens hle hattained]
  constructor
  · intro hsight _ hscan i r hi hr j x hj hopen hx y hy hnewer
    obtain rfl := FeedEvent.scan.inj hscan
    exact hsight r (List.mem_of_getElem? hi) ⟨i, hi, hr⟩ x (List.mem_of_getElem? hj)
      ((unresolved_scan_iff hvaas h hj).mpr ⟨hopen, hx⟩) y hy hnewer
  · rintro hslack r - ⟨i, hi, hr⟩ x hx hopen y hy hnewer
    obtain ⟨j, hj⟩ := List.mem_iff_getElem?.mp hx
    obtain ⟨hopen, hunobserved⟩ := (unresolved_scan_iff hvaas h hj).mp hopen
    exact hslack scan rfl i r hi hr j x hj hopen hunobserved y hy hnewer

/-! ## Soundness of the watermark -/

theorem run_clears (hr : Run L.Step initialFeed ts st)
    (hslack : ∀ before tr after, ts = before ++ tr :: after → L.WithinSlack before tr) :
    L.ClearsUnresolved ts st := by
  induction hr with
  | nil =>
      intro x hx
      cases hx
  | @snoc w w' event ts hr hstep ih =>
      have hclears := ih (fun before tr after hts => hslack before tr (after ++ [⟨w, event, w'⟩])
        (by simp [hts]))
      cases event with
      | arrive item =>
          obtain ⟨hnewest, rfl⟩ := hstep
          exact InSight.cons hclears (run_ok hr) hnewest
            (fun x _ hx => (unresolved_snoc.mp hx).1)
      | scan scan =>
          exact (scan_clears_iff (run_ok hr).newestFirst hclears hstep).mpr (hslack ts _ [] rfl)

/-- Along a run every VAA that was never observed cleanly stays within the next scan, exactly if
every scan of the run records within the slack. -/
theorem watermark_sound_iff (hr : Run L.Step initialFeed ts st) :
    (∀ before after w, ts = before ++ after → Run L.Step initialFeed before w →
      L.FindsUnresolved before w) ↔
    ∀ before tr after, ts = before ++ tr :: after → L.WithinSlack before tr := by
  constructor
  · rintro hfinds before ⟨w, event, w'⟩ after rfl
    obtain ⟨hbefore, hstep, -⟩ := hr.split
    have hvaas := (run_ok hbefore).newestFirst
    have hclears := (findsUnresolved_iff hvaas).mp (hfinds before _ w rfl hbefore)
    cases event with
    | arrive item =>
        rintro scan hscan
        cases hscan
    | scan scan =>
        refine (scan_clears_iff hvaas hclears hstep).mp ?_
        have hafter := hbefore.snoc hstep
        exact (findsUnresolved_iff (run_ok hafter).newestFirst).mp
          (hfinds _ after w' (by simp) hafter)
  · rintro hslack before after w rfl hbefore
    rw [findsUnresolved_iff (run_ok hbefore).newestFirst]
    refine run_clears hbefore ?_
    rintro first tr rest rfl
    exact hslack first tr (rest ++ after) (by simp)

end Runs

/-! ## A burst -/

/-- VAAs can arrive in any number before the first scan. -/
theorem run_arrivals (L : EnumeratorLeg) {vaas : List WormholescanVaa} (h : NewestFirst vaas) :
    ∃ ts, Run L.Step initialFeed ts ⟨vaas, fun _ => none⟩ ∧
      ∀ tr ∈ ts, ∃ item, tr.act = .arrive item := by
  refine run_of_pairwise (fun vaas => (⟨vaas, fun _ => none⟩ : FeedState)) FeedEvent.arrive ?_ h
  exact fun _ _ hnewest => ⟨hnewest, rfl⟩

def burstLeg : EnumeratorLeg where
  rt := Relayer.referenceBase
  chainId := 51
  emitterHex := "00000000000000000000000000000000000000000000000000000000000f0900"
  leg := .deposit
  nttProgramId := Relayer.nttUsdcProgram
  recvMint := Relayer.usdcMint

/-- Pages of two VAAs, and a failed fetch for some. -/
def burstScan (fetchFails : ℕ → Bool) : IncrementalScan where
  pageSize := 2
  maxPages := 5
  fails _ := false
  terminalCache _ _ := false
  reads x := ⟨fun _ => if fetchFails x.sequence then .rpcError else .missing, fun _ => .absent,
    fun _ => .absent⟩

theorem burst_newestFirst (fromChain toChain : UInt16) : NewestFirst (burst fromChain toChain) := by
  simp [burst, NewestFirst, feedVaa]

theorem burst_fetchFails (fetchFails : ℕ → Bool) (sequence : UInt64) :
    FetchFails burstLeg.rt burstLeg.nttProgramId
      ((burstScan fetchFails).terminalCache (feedVaa 51 1 sequence))
      ((burstScan fetchFails).reads (feedVaa 51 1 sequence)) (feedVaa 51 1 sequence) ↔
    fetchFails sequence.toNat = true := by
  obtain ⟨resolved, hresolved, -⟩ := resolveNttVaa_wire burstLeg.rt (feedEnvelope sequence)
    (feedMessage 51 1 sequence) burstLeg.nttProgramId none
  constructor
  · rintro ⟨_, -, -, hread⟩
    by_contra hne
    simp [burstScan, feedVaa, hne] at hread
  · intro h
    exact ⟨resolved, hresolved, rfl, by simp [burstScan, feedVaa, h]⟩

/-- The state after the burst has arrived and one scan of it was made. -/
def burstScanned (scan : IncrementalScan) : FeedState :=
  ⟨burst 51 1, (burstLeg.harvest scan ⟨burst 51 1, fun _ => none⟩).watermarks⟩

theorem burstScanned_watermarks (scan : IncrementalScan) : (burstScanned scan).watermarks =
    (burstLeg.harvest scan ⟨burst 51 1, fun _ => none⟩).watermarks := rfl

/-- A scan that misses the four newest of a burst keeps them in sight. -/
theorem watermark_sound_burst : ∃ ts,
    Run burstLeg.Step initialFeed ts (burstScanned (burstScan (fun n => 6 ≤ n))) ∧
    burstLeg.FindsUnresolved ts (burstScanned (burstScan (fun n => 6 ≤ n))) := by
  obtain ⟨ts, hr, hacts⟩ := run_arrivals burstLeg (burst_newestFirst 51 1)
  have hstep : burstLeg.Step ⟨burst 51 1, fun _ => none⟩ (.scan (burstScan (fun n => 6 ≤ n)))
      (burstScanned (burstScan (fun n => 6 ≤ n))) := rfl
  refine ⟨_, hr.snoc hstep, ?_⟩
  refine (watermark_sound_iff (hr.snoc hstep)).mpr ?_ _ [] _ (by simp) (hr.snoc hstep)
  intro before tr after hts scan hscan i r hi hobserved _ _ _ _ _ _ _ _
  have htr : tr ∈ before ++ tr :: after := by simp
  rw [← hts] at htr
  rcases List.mem_append.mp htr with htr | htr
  · obtain ⟨item, hitem⟩ := hacts tr htr
    cases hscan.symm.trans hitem
  · obtain rfl := List.mem_singleton.mp htr
    obtain rfl := FeedEvent.scan.inj hscan
    obtain ⟨n, -, rfl⟩ := List.mem_map.mp (List.mem_of_getElem? hi)
    have hfetch := (burst_fetchFails _ n).not.mp hobserved.2
    exact .inl (by simpa [feedVaa, backfillCount, Nat.lt_succ_iff] using hfetch)

/-- After a scan in which only the fetch for VAA 1 failed, the next scan ends at a page before
it. -/
theorem missed_vaa_cut_off : ∃ ts,
    Run burstLeg.Step initialFeed ts (burstScanned (burstScan (fun n => n = 1))) ∧
    burstLeg.Unresolved ts (feedVaa 51 1 1) ∧ (burst 51 1)[8]? = some (feedVaa 51 1 1) ∧
    8 < (burstScan (fun _ => false)).pageSize * (burstScan (fun _ => false)).maxPages ∧
    (∀ page, (burstScan (fun _ => false)).fails page = false) ∧
    feedVaa 51 1 1 ∉ burstLeg.yields (burstScan (fun _ => false))
      (burstScanned (burstScan (fun n => n = 1))) := by
  obtain ⟨ts, hr, hacts⟩ := run_arrivals burstLeg (burst_newestFirst 51 1)
  have hstep : burstLeg.Step ⟨burst 51 1, fun _ => none⟩ (.scan (burstScan (fun n => n = 1)))
      (burstScanned (burstScan (fun n => n = 1))) := rfl
  have hvaas := burst_newestFirst 51 1
  have hone : (burst 51 1)[8]? = some (feedVaa 51 1 1) := rfl
  refine ⟨_, hr.snoc hstep, ?_, hone, by decide, fun _ => rfl, ?_⟩
  · refine unresolved_snoc.mpr ⟨?_, ?_⟩
    · rintro tr htr ⟨scan, hscan, -⟩
      obtain ⟨item, hitem⟩ := hacts tr htr
      cases hscan.symm.trans hitem
    · intro hres
      exact ((resolved_iff (run_ok hr).newestFirst hone).mp hres).2.2 ((burst_fetchFails _ 1).mpr (by decide))
  · -- VAA 9 is recorded, so that the page of the VAAs 3 and 2 is at the floor
    have hobserved : burstLeg.Observes (burstScan (fun n => n = 1)) 0 (feedVaa 51 1 9) :=
      ⟨⟨by decide, by decide, fun _ _ => ⟨rfl, rfl⟩⟩, (burst_fetchFails _ 9).not.mpr (by decide)⟩
    have hfirst : (burst 51 1)[0]? = some (feedVaa 51 1 9) := rfl
    have hnine := observes_le_mark (run_ok hr).newestFirst hfirst hobserved
    rw [← burstScanned_watermarks] at hnine
    intro hmem
    have hpages : 3 < 8 / (burstScan (fun _ => false)).paging.pageSize := by decide
    rw [yields_eq] at hmem
    obtain ⟨v, hv, hclears⟩ := Paging.clears_of_yields hvaas hone hmem hpages
    have hpage : v = feedVaa 51 1 3 ∨ v = feedVaa 51 1 2 := by
      simpa [burst, feedPage, burstScan, IncrementalScan.paging] using hv
    have hle : v.sequence ≤ 3 := by
      rcases hpage with rfl | rfl <;> decide
    have hlow := hclears.mono hnine hle
    revert hlow
    decide

end FogoYield.Cranker
