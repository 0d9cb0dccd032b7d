import Mathlib.Tactic.IntervalCases
import FogoYield.Model.Cranker.Reference
import FogoYield.Verification.Cranker.Reads
import FogoYield.Verification.Relayer.ReferenceInbox

/-! # Scans of the reference chain

The enumerator beside the reference chain: how a scan of the reference deposit steps, and what is
known of a run in which the deposit is sent. -/

namespace FogoYield.Cranker

open FogoYield.Library FogoYield.Solana FogoYield.Sdk
open FogoYield.Relayer (RelayerWorld RelayerRun RelayerTransition InboxItem Action pairConfigAt
  inboxItemAt userInbox OwnManagers taken TakesPaid FreshInboxes referenceEnv genesis pairConfigKey
  nttUsdcProgram usdcMint inboxItemKey bootstrapAction initializeAction Ends executed)

/-! ## The scan of the deposit -/

/-- What the scan waits for behind its next read. -/
def nextPhase (w : RelayerWorld) (phase : ScanPhase) : ScanPhase :=
  ((depositScan phase).advance referenceEnv.runtime (depositReads w)).phase

/-- The enumerator while it scans the deposit. -/
def scanning (w : RelayerWorld) (phase : ScanPhase) : Enumerator :=
  { makeEnumerator w with scans := [depositScan phase] }

def pairReady (w : RelayerWorld) : Prop :=
  (pairConfigAt w.accounts pairConfigKey).map
    (fun c => (c.receiveNttProgram .deposit, c.receiveMint .deposit)) =
      some (nttUsdcProgram, usdcMint)

instance (w : RelayerWorld) : Decidable (pairReady w) := inferInstanceAs (Decidable (_ = _))

theorem depositVaa_resolves : (resolveNttVaa referenceEnv.runtime depositVaa.vaa nttUsdcProgram
    none).toOption.map ResolvedNttVaa.nttInboxItem = some inboxItemKey := by decide +kernel

theorem begin_deposit {w : RelayerWorld} (h : pairReady w) :
    (makeEnumerator w).begin referenceEnv.runtime pairConfigKey .deposit depositVaa =
      some (.ok (depositScan .flow)) := by
  obtain ⟨c, hc, hfields⟩ := Option.map_eq_some_iff.mp h
  obtain ⟨hprogram, hmint⟩ := Prod.mk.inj hfields
  have hresolves := depositVaa_resolves
  change (pairConfigAt w.accounts pairConfigKey).map _ = _
  rw [hc, Option.map_some, VaaLeg.direction, hprogram, hmint, VaaScan.begin]
  cases hr : resolveNttVaa referenceEnv.runtime depositVaa.vaa nttUsdcProgram none with
  | error e =>
      rw [hr] at hresolves
      cases hresolves
  | ok resolved =>
      rw [hr] at hresolves
      have hitem : resolved.nttInboxItem = inboxItemKey := Option.some.inj hresolves
      simp only [hitem]
      rfl

theorem step_start {w : RelayerWorld} (h : pairReady w) : Enumerator.Step referenceEnv
    pairConfigKey (makeEnumerator w) (.start .deposit depositVaa) (scanning w .flow) := by
  refine ⟨fun _ => EnumeratorEvent.noConfusion, ?_⟩
  simp only [Enumerator.apply, begin_deposit h]
  rfl

theorem step_read (w : RelayerWorld) (phase : ScanPhase) : Enumerator.Step referenceEnv
    pairConfigKey (scanning w phase) (.read 0 false) (scanning w (nextPhase w phase)) := by
  refine ⟨fun _ => EnumeratorEvent.noConfusion, ?_⟩
  cases phase <;> rfl

theorem step_finish (w : RelayerWorld) (resolution : VaaResolution) : Enumerator.Step referenceEnv
    pairConfigKey (scanning w (.done resolution)) (.finish 0)
      ((scanning w (.done resolution)).finish 0 (depositScan (.done resolution)) resolution) :=
  ⟨fun _ => EnumeratorEvent.noConfusion, rfl⟩

theorem step_chain {w w' : RelayerWorld} {act : Action} (phase : ScanPhase)
    (h : Relayer.Step referenceEnv w act w') : Enumerator.Step referenceEnv pairConfigKey
      (scanning w phase) (.chain act) (scanning w' phase) := by
  refine ⟨fun act' hact => ?_, ?_⟩
  · obtain rfl := EnumeratorEvent.chain.inj hact
    exact h.1
  · simp only [Enumerator.apply, scanning, makeEnumerator, h.2]

/-- A step of the chain while nothing is scanned. -/
def quietStep (tr : RelayerTransition) : EnumeratorTransition :=
  ⟨makeEnumerator tr.pre, .chain tr.act, makeEnumerator tr.post⟩

theorem run_quiet {w₀ w : RelayerWorld} {ts : List RelayerTransition}
    (hr : RelayerRun referenceEnv w₀ ts w) : EnumeratorRun referenceEnv pairConfigKey
      (makeEnumerator w₀) (ts.map quietStep) (makeEnumerator w) := by
  induction hr with
  | nil => exact .nil _
  | @snoc w w' act ts hr hstep ih =>
      rw [List.map_append, List.map_singleton]
      refine .snoc ih ⟨fun act' hact => ?_, ?_⟩
      · obtain rfl := EnumeratorEvent.chain.inj hact
        exact hstep.1
      · simp only [Enumerator.apply, makeEnumerator, hstep.2]

theorem quiet_acts (ts : List RelayerTransition) :
    (ts.map quietStep).map Transition.act = (ts.map Transition.act).map .chain := by
  simp [quietStep, Function.comp_def]

theorem chainSteps_quiet (ts : List RelayerTransition) : chainSteps (ts.map quietStep) = ts := by
  simp [chainSteps, quietStep, List.filterMap_map, Function.comp_def, makeEnumerator]

theorem chainSteps_behind (chain : List RelayerTransition) {own : List EnumeratorTransition}
    (h : chainSteps own = []) : chainSteps (chain.map quietStep ++ own) = chain := by
  rw [chainSteps_append, chainSteps_quiet, h, List.append_nil]

/-- The item of the deposit is the user's, and its mint is of the classic token program. -/
def depositReadable (w : RelayerWorld) : Prop :=
  (inboxItemAt nttUsdcProgram w.accounts inboxItemKey).map InboxItem.recipientAddress =
      some (userInbox referenceEnv.runtime Relayer.user Relayer.floor) ∧
    (w.accounts usdcMint).owner = tokenProgram

instance (w : RelayerWorld) : Decidable (depositReadable w) :=
  inferInstanceAs (Decidable (_ ∧ _))

/-! ## The chain below it -/

theorem genesis_fresh : FreshInboxes referenceEnv (genesis 1000000000) := by
  intro userWallet minSwapOut mint _
  constructor
  · intro t ht
    obtain ⟨hmem, -⟩ := Relayer.genesis_token ht
    have hheld : ∀ e ∈ Relayer.genesisTokens,
        referenceEnv.runtime.ata e.2.owner e.2.mint tokenProgram = e.1 ∧
          e.2.delegatedAmount = 0 ∧ e.2.closeAuthority = none := by decide +kernel
    obtain ⟨haddress, hrest⟩ := hheld _ hmem
    exact ⟨(Relayer.referenceEnv_address.ata_inj haddress).1, hrest⟩
  · refine Backed.of_zero ?_ (Nat.zero_le _)
    intro k
    have hitems : ∀ e ∈ Relayer.genesisAccounts 1000000000, referenceEnv.nttMint e.2.owner = none ∨
        (InboxItem.tryLoad e.2.bytes).toOption = none := by decide +kernel
    have hzero : referenceEnv.nttMint ((genesis 1000000000).accounts k).owner = none ∨
        (InboxItem.tryLoad ((genesis 1000000000).accounts k).bytes).toOption = none := by
      rcases Relayer.accountsOf_cases (Relayer.genesisAccounts 1000000000) k with hmem | habsent
      · exact hitems _ hmem
      · change (genesis 1000000000).accounts k = _ at habsent
        rw [habsent]
        exact .inl rfl
    rcases hzero with hnone | hnone
    · simp [unsettled, Relayer.releasedTo_of_not_manager hnone]
    · cases hload : InboxItem.tryLoad ((genesis 1000000000).accounts k).bytes with
      | ok i =>
          rw [hload] at hnone
          cases hnone
      | error e => simp [unsettled, Relayer.releasedTo, hload]

section

variable {ts : List RelayerTransition} (hacts : ts.map Transition.act = sentActions)

include hacts

theorem sent_ownManagers : ∀ u ∈ ts, OwnManagers referenceEnv u := by
  intro u hu ctx accs args hact
  have hmem : u.act ∈ sentActions := hacts ▸ List.mem_map_of_mem hu
  simp only [sentActions, List.mem_cons, List.not_mem_nil, or_false] at hmem
  rcases hmem with h | h | h | h | h
  · cases h.symm.trans hact
  · cases h.symm.trans hact
    exact ⟨rfl, rfl⟩
  · cases h.symm.trans hact
  · cases h.symm.trans hact
  · cases h.symm.trans hact

omit hacts in
theorem not_signs_of_wallets {metas : List AccountMeta} {k : Pubkey}
    (h : ∀ m ∈ metas, m.isSigner = true →
      m.pubkey = Relayer.cranker ∨ m.pubkey = Relayer.outboxItem)
    (hcranker : Relayer.cranker ≠ k) (houtbox : Relayer.outboxItem ≠ k) :
    ¬ ∃ m ∈ metas, m.pubkey = k ∧ m.isSigner = true := by
  rintro ⟨m, hm, rfl, hsigner⟩
  rcases h m hm hsigner with hkey | hkey
  · exact hcranker hkey.symm
  · exact houtbox hkey.symm

/-- Nobody signs for an inbox. -/
theorem sent_not_signedBy : ∀ u ∈ ts, ∀ userWallet minSwapOut,
    ¬ u.act.SignedBy (userInbox referenceEnv.runtime userWallet minSwapOut) := by
  intro u hu userWallet minSwapOut
  have hcranker : Relayer.cranker ≠ userInbox referenceEnv.runtime userWallet minSwapOut :=
    Relayer.not_derived (by decide +kernel) (by decide) _ _
  have houtbox : Relayer.outboxItem ≠ userInbox referenceEnv.runtime userWallet minSwapOut :=
    Relayer.not_derived (by decide +kernel) (by decide) _ _
  have hmem : u.act ∈ sentActions := hacts ▸ List.mem_map_of_mem hu
  simp only [sentActions, List.mem_cons, List.not_mem_nil, or_false] at hmem
  rcases hmem with h | h | h | h | h <;> rw [h]
  · exact id
  · exact id
  · exact not_signs_of_wallets (by decide +kernel) hcranker houtbox
  · exact not_signs_of_wallets (by decide +kernel) hcranker houtbox
  · exact not_signs_of_wallets (by decide +kernel) hcranker houtbox

/-- The receive of the deposit takes what it was paid. -/
theorem sent_takesPaid {w : RelayerWorld}
    (hr : RelayerRun referenceEnv (genesis 1000000000) ts w) :
    ∀ before u after, ts = before ++ u :: after → TakesPaid referenceEnv before u := by
  rintro before u after rfl ctx accs args hact
  have hget : sentActions[before.length]? = some u.act := by
    rw [← hacts]
    simp
  have htake : before.map Transition.act = sentActions.take before.length := by
    rw [← hacts]
    simp
  have hlength : before.length < 5 := (List.getElem?_eq_some_iff.mp hget).1
  rw [hact] at hget
  obtain ⟨hrun, -, -⟩ := hr.split
  have hdue : Ends (fun w => ((pairConfigAt w.accounts pairConfigKey).bind fun c =>
      (Relayer.TransceiverMessage.decode (w.accounts Relayer.transceiverMessage).bytes).map
        fun m => decide (Relayer.releaseTime referenceEnv (c.receiveNttProgram .deposit) w m ≤
          w.clock.unixTimestamp)) = some true)
      (executed 1000000000 [bootstrapAction, initializeAction]) := by decide +kernel
  interval_cases before.length
  · cases hget
  · cases hget
  · obtain ⟨c, hc, hrest⟩ := Option.bind_eq_some_iff.mp
      (Relayer.holds_of_executed hdue hrun htake)
    obtain ⟨m, hm, hle⟩ := Option.map_eq_some_iff.mp hrest
    have hfirst : taken before inboxItemKey =
        (before.map Transition.act).any (fun act => act.takes inboxItemKey) := by
      simp [taken, Function.comp_def]
    cases Option.some.inj hget
    refine ⟨?_, c, m, hc, hm, .inr (of_decide_eq_true hle)⟩
    change taken before inboxItemKey = false
    rw [hfirst, htake]
    rfl
  · cases hget
  · cases hget

end

end FogoYield.Cranker
