import FogoYield.Library.Base58
import FogoYield.Model.Cranker.BridgePrefetch
import FogoYield.Model.Cranker.Reference
import Mathlib.Data.List.Forall2
import Mathlib.Data.List.Induction

/-! # Batched planning

The chunks of a key list put together are the list, so the results stand in the order of the keys.
Behind a batch that was read, each VAA finds under its own key what its own read would find, and
otherwise it makes that read. -/

namespace FogoYield.Cranker

open FogoYield.Library FogoYield.Solana FogoYield.Sdk
open FogoYield.Relayer (RelayerRuntime)

/-! ## Chunks -/

section

variable {α : Type} {getMultipleAccountsInfo : List Pubkey → Option (List (Option α))}
  {R : Pubkey → Option α → Prop} {pubkeys : List Pubkey}

theorem fetchChunks_entries
    (hcall : ∀ keys infos, getMultipleAccountsInfo keys = some infos → List.Forall₂ R keys infos)
    {chunkSize : ℕ} {hpos : 0 < chunkSize} {i : ℕ} {out res : List (Option α)}
    (hout : List.Forall₂ R (pubkeys.take i) out)
    (h : fetchChunks getMultipleAccountsInfo pubkeys chunkSize hpos i out = some res) :
    List.Forall₂ R pubkeys res := by
  fun_induction fetchChunks getMultipleAccountsInfo pubkeys chunkSize hpos i out with
  | case1 i out hi infos hinfos ih =>
      refine ih ?_ h
      rw [List.take_add]
      exact List.rel_append hout (hcall _ _ hinfos)
  | case2 => cases h
  | case3 i out hi =>
      obtain rfl := Option.some.inj h
      rwa [List.take_of_length_le (Nat.not_lt.mp hi)] at hout

/-- One entry per key, in the order of the keys. -/
theorem getMultipleAccountsChunked_entries
    (hcall : ∀ keys infos, getMultipleAccountsInfo keys = some infos → List.Forall₂ R keys infos)
    {chunkSize : Option ℤ} {res : List (Option α)}
    (h : getMultipleAccountsChunked getMultipleAccountsInfo pubkeys chunkSize = some res) :
    List.Forall₂ R pubkeys res := by
  unfold getMultipleAccountsChunked at h
  split at h
  · rename_i hnil
    obtain rfl := Option.some.inj h
    rw [List.length_eq_zero_iff.mp hnil]
    exact .nil
  · exact fetchChunks_entries hcall .nil h

theorem entries_eq_map {chain : Pubkey → Option α} {keys : List Pubkey}
    {infos : List (Option α)} :
    List.Forall₂ (fun key info => chain key = info) keys infos ↔ keys.map chain = infos := by
  rw [← List.forall₂_map_left_iff (R := Eq), List.forall₂_eq_eq_eq]

/-- What the calls tell of the chain, the chunked read tells of it. -/
theorem chunked_eq_map {chain : Pubkey → Option α}
    (hcall : ∀ keys infos, getMultipleAccountsInfo keys = some infos → infos = keys.map chain)
    {chunkSize : Option ℤ} {res : List (Option α)}
    (h : getMultipleAccountsChunked getMultipleAccountsInfo pubkeys chunkSize = some res) :
    res = pubkeys.map chain :=
  (entries_eq_map.mp (getMultipleAccountsChunked_entries
    (fun keys infos hinfos => entries_eq_map.mpr (hcall keys infos hinfos).symm) h)).symm

theorem fetchChunks_isSome {chunkSize : ℕ} {hpos : 0 < chunkSize} (hsize : chunkSize ≤ 100)
    (hcall : ∀ keys, keys.length ≤ 100 → getMultipleAccountsInfo keys ≠ none) (i : ℕ)
    (out : List (Option α)) :
    fetchChunks getMultipleAccountsInfo pubkeys chunkSize hpos i out ≠ none := by
  fun_induction fetchChunks getMultipleAccountsInfo pubkeys chunkSize hpos i out with
  | case1 i out hi infos hinfos ih => exact ih
  | case2 i out hi hnone => exact absurd hnone (hcall _ ((List.length_take_le _ _).trans hsize))
  | case3 => nofun

/-- No call asks for more keys than a call may. -/
theorem getMultipleAccountsChunked_isSome
    (hcall : ∀ keys, keys.length ≤ 100 → getMultipleAccountsInfo keys ≠ none)
    (pubkeys : List Pubkey) (chunkSize : Option ℤ) :
    getMultipleAccountsChunked getMultipleAccountsInfo pubkeys chunkSize ≠ none := by
  unfold getMultipleAccountsChunked
  split
  · nofun
  · exact fetchChunks_isSome (by simp only [maxKeysPerCall]; omega) hcall 0 []

end

/-! ## The map of the batch -/

variable {toBase58 : Pubkey → String}

theorem infoByKey_snoc (toFetch : List Pubkey) (infos : List (Option Bytes)) (key : Pubkey) :
    infoByKey toBase58 (toFetch ++ [key]) infos =
      Function.update (infoByKey toBase58 toFetch infos) (toBase58 key)
        (some (infos[toFetch.length]?.getD none)) := by
  rw [infoByKey, List.zipIdx_append, List.foldl_append]
  simp [infoByKey]

/-- Under a key stands what the chain has there. -/
theorem infoByKey_eq (hinj : Function.Injective toBase58) (chain : Pubkey → Option Bytes)
    (toFetch rest : List Pubkey) {key : Pubkey} (hmem : key ∈ toFetch) :
    infoByKey toBase58 toFetch ((toFetch ++ rest).map chain) (toBase58 key) =
      some (chain key) := by
  induction toFetch using List.reverseRecOn generalizing rest with
  | nil => cases hmem
  | append_singleton toFetch last ih =>
      rw [infoByKey_snoc]
      by_cases hlast : key = last
      · subst hlast
        rw [Function.update_self, List.append_assoc]
        simp
      · have hmem' : key ∈ toFetch := (List.mem_append.mp hmem).resolve_right (by simpa using hlast)
        rw [Function.update_of_ne (fun h => hlast (hinj h)), List.append_assoc]
        exact ih ([last] ++ rest) hmem'

/-! ## Plans -/

variable {rt : RelayerRuntime} {onCurve : Pubkey → Bool} {target : BridgeRedeemTarget}
  {chain : Pubkey → Option Bytes} {getAccountInfo : Pubkey → AccountRead}
  {getMultipleAccountsInfo : List Pubkey → Option (List (Option Bytes))}

/-- Under its key a VAA finds what the chain has there, if the batch was read. -/
theorem bridgeWork_eq (hinj : Function.Injective toBase58)
    (hcall : ∀ keys infos, getMultipleAccountsInfo keys = some infos → infos = keys.map chain)
    (chunkSize : Option ℤ) (inTime : Bool) (vaas : List WormholescanVaa) :
    ∃ batch : Option (Pubkey → Option Bytes), (batch = none ∨ batch = some chain) ∧
      bridgeWork rt toBase58 target getMultipleAccountsInfo chunkSize inTime vaas =
        vaas.map (fun it => (it, prefetchInbox rt target batch it)) := by
  have hzip : vaas.zip (inboxKeys rt target vaas) =
      vaas.map (fun it => (it, inboxKey rt target it)) := List.map_prod_left_eq_zip.symm
  unfold bridgeWork
  simp only [hzip, List.map_map]
  cases hinfos : (if ((inboxKeys rt target vaas).filterMap id).length > 0 ∧ inTime = true then
      getMultipleAccountsChunked getMultipleAccountsInfo
        ((inboxKeys rt target vaas).filterMap id) chunkSize
    else none) with
  | none =>
      refine ⟨none, .inl rfl, List.map_congr_left ?_⟩
      intro it _
      simp only [Function.comp_apply, prefetchInbox]
  | some infos =>
      refine ⟨some chain, .inr rfl, List.map_congr_left ?_⟩
      intro it hit
      have hinfos' : infos = ((inboxKeys rt target vaas).filterMap id).map chain := by
        split at hinfos
        · exact chunked_eq_map hcall hinfos
        · cases hinfos
      rw [Function.comp_apply]
      cases hresolved : resolveNttVaa rt it.vaa target.destNttManagerProgramId
          (some target.destWhTransceiverProgramId) with
      | error err =>
          have hkey : inboxKey rt target it = none := by simp only [inboxKey, hresolved]
          simp only [hkey, prefetchInbox, hresolved]
      | ok resolved =>
          have hkey : inboxKey rt target it = some resolved.nttInboxItem := by
            simp only [inboxKey, hresolved]
          have hmem : resolved.nttInboxItem ∈ (inboxKeys rt target vaas).filterMap id :=
            List.mem_filterMap.mpr ⟨_, List.mem_map_of_mem hit, hkey⟩
          have hinfo := infoByKey_eq hinj chain _ [] hmem
          rw [List.append_nil, ← hinfos'] at hinfo
          simp only [hkey, prefetchInbox, hresolved, hinfo, Option.getD_some]

/-- Nothing, or what the VAA's own read would find, is as good as that read. -/
theorem planBridgeRedeem_prefetchInbox (hread : ∀ key, (getAccountInfo key).orNull = chain key)
    {batch : Option (Pubkey → Option Bytes)} (hbatch : batch = none ∨ batch = some chain)
    (it : WormholescanVaa) (now : ℤ) :
    planBridgeRedeem rt onCurve target it.vaa (prefetchInbox rt target batch it) getAccountInfo
        now =
      planBridgeRedeem rt onCurve target it.vaa none getAccountInfo now := by
  rcases hbatch with rfl | rfl
  · rfl
  · unfold planBridgeRedeem prefetchInbox
    cases resolveNttVaa rt it.vaa target.destNttManagerProgramId
        (some target.destWhTransceiverProgramId) with
    | error err => rfl
    | ok resolved => simp only [Option.getD_some, Option.getD_none, hread]

/-- The scan's effect on the watermarks does not depend on the batch. -/
theorem scanAndRedeemBridge_batch (hread : ∀ key, (getAccountInfo key).orNull = chain key)
    (maxPages : ℕ) (source : PageSource) (schedule : PoolSchedule WormholescanVaa)
    (world : WormholescanVaa → RedeemWorld)
    (hworld : ∀ item, (world item).getAccountInfo = getAccountInfo) (watermarks : WatermarkStore) :
    scanAndRedeemBridge rt onCurve target maxPages source (some chain) schedule world watermarks =
      scanAndRedeemBridge rt onCurve target maxPages source none schedule world watermarks := by
  have hplan : ∀ item, planAndSubmit rt onCurve target item.vaa
        (prefetchInbox rt target (some chain) item) (world item) =
      planAndSubmit rt onCurve target item.vaa (prefetchInbox rt target none item)
        (world item) := by
    intro item
    unfold planAndSubmit
    rw [hworld, planBridgeRedeem_prefetchInbox hread (.inr rfl),
      planBridgeRedeem_prefetchInbox hread (.inl rfl)]
  simp only [scanAndRedeemBridge, hplan]

/-- The Solana leg of the reference deposit. -/
def depositTarget : BridgeRedeemTarget where
  sourceChainId := 51
  sourceEmitterHex := "00"
  destChainId := 1
  destNttManagerProgramId := Relayer.nttUsdcProgram
  destWhTransceiverProgramId := Relayer.nttUsdcProgram
  destMint := Relayer.usdcMint
  destSigner := Pubkey.default
  destReleaseMode := .locking
  configReady := true
  configError := none

/-- An inbox item of the USDC manager. -/
def bridgeItem (releaseStatus : Relayer.ReleaseStatus) : Bytes :=
  Relayer.InboxItem.encode ⟨true, 254, 100000000, Relayer.user, 1, releaseStatus⟩

/-- The item of the deposit is released, that of the other VAA is due at 1700000000. -/
def bridgeChain : Pubkey → Option Bytes := fun key =>
  if key = Relayer.inboxItemKey then some (bridgeItem .released)
  else if key = Relayer.misroutedItemKey then some (bridgeItem (.releaseAfterDelay 1700000000))
  else none

/-- A released VAA that is listed twice, one that cannot be parsed and one that is gated. -/
def bridgeVaas : List WormholescanVaa := [depositVaa, ⟨[], 3, none⟩, withdrawVaa, depositVaa]

/-- What is planned at `now` for each VAA of `work`. -/
def bridgePlans (work : List (WormholescanVaa × Option (Option Bytes))) (now : ℤ) :
    List (Except BridgeError BridgePlan) :=
  work.map fun item => planBridgeRedeem Relayer.referenceBase (fun _ => true) depositTarget
    item.1.vaa item.2 (fun key => (bridgeChain key).elim .absent .found) now

/-- Whatever the batch comes to, the scan keeps the VAAs in their order and plans for each of them
what is planned for it alone; and the chunked read has one entry for each key. -/
theorem batched_planning (hinj : Function.Injective toBase58)
    (hcall : ∀ keys infos, getMultipleAccountsInfo keys = some infos → infos = keys.map chain)
    (hread : ∀ key, getAccountInfo key = (chain key).elim .absent .found)
    (chunkSize : Option ℤ) (inTime : Bool) (vaas : List WormholescanVaa) (now : ℤ) :
    let work := bridgeWork rt toBase58 target getMultipleAccountsInfo chunkSize inTime vaas
    work.map Prod.fst = vaas ∧
      (∀ item ∈ work,
        planBridgeRedeem rt onCurve target item.1.vaa item.2 getAccountInfo now =
          planBridgeRedeem rt onCurve target item.1.vaa none getAccountInfo now) ∧
      (∀ keys res, getMultipleAccountsChunked getMultipleAccountsInfo keys chunkSize = some res →
        res = keys.map chain) ∧
      ((∀ keys, keys.length ≤ 100 → getMultipleAccountsInfo keys ≠ none) →
        ∀ keys, getMultipleAccountsChunked getMultipleAccountsInfo keys chunkSize =
          some (keys.map chain)) := by
  intro work
  obtain ⟨batch, hbatch, hwork⟩ : ∃ batch, (batch = none ∨ batch = some chain) ∧
      work = vaas.map (fun it => (it, prefetchInbox rt target batch it)) :=
    bridgeWork_eq hinj hcall chunkSize inTime vaas
  have hread' : ∀ key, (getAccountInfo key).orNull = chain key := by
    intro key
    rw [hread]
    cases chain key <;> rfl
  refine ⟨?_, ?_, ?_, ?_⟩
  · rw [hwork, List.map_map]
    exact List.map_id vaas
  · intro item hitem
    rw [hwork] at hitem
    obtain ⟨it, -, rfl⟩ := List.mem_map.mp hitem
    exact planBridgeRedeem_prefetchInbox hread' hbatch it now
  · intro keys res h
    exact chunked_eq_map hcall h
  · intro hok keys
    obtain ⟨res, hres⟩ := Option.ne_none_iff_exists'.mp
      (getMultipleAccountsChunked_isSome hok keys chunkSize)
    rw [hres, chunked_eq_map hcall hres]

/-- Two keys a call: each VAA is planned by its own item. -/
theorem batched_planning_chunks :
    let work := bridgeWork Relayer.referenceBase (fun key => base58 key.bytes) depositTarget
      (fun keys => some (keys.map bridgeChain)) (some 2) true bridgeVaas
    work.map Prod.fst = bridgeVaas ∧
      bridgePlans work 1600000000 =
        [.ok (.noop (.alreadyReleased Relayer.inboxItemKey)),
          .ok (.noop (.unparseable (.vaaTooShort 0))), .ok (.noop (.gatedUntil 1700000000)),
          .ok (.noop (.alreadyReleased Relayer.inboxItemKey))] := by
  intro work
  have hinj : Function.Injective (fun key : Pubkey => base58 key.bytes) := by
    intro a b h
    cases a
    cases b
    exact congrArg Pubkey.mk (base58_injective h)
  obtain ⟨horder, hplans, -⟩ := @batched_planning _ Relayer.referenceBase (fun _ => true)
    depositTarget bridgeChain _ _ hinj (fun keys infos h => (Option.some.inj h).symm)
    (fun _ => rfl) (some 2) true bridgeVaas 1600000000
  refine ⟨horder, ?_⟩
  have halone : bridgePlans work 1600000000 =
      bridgePlans (bridgeVaas.map (·, none)) 1600000000 := by
    rw [← horder]
    simp only [bridgePlans, List.map_map]
    exact List.map_congr_left hplans
  rw [halone]
  decide +kernel

end FogoYield.Cranker
