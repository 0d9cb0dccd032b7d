import FogoYield.Verification.Cranker.ReferenceScan

/-! # Closed flows

What a scan returns is put together from three reads at different moments. It is right about a
closed flow as long as nobody receives the item between the first read and the last. -/

namespace FogoYield.Cranker

open FogoYield.Library FogoYield.Solana FogoYield.Sdk
open FogoYield.Relayer (RelayerRuntime RelayerAccounts RelayerWorld RelayerRun RelayerTransition
  InboxItem Env Action Genesis InboxLaws pairConfigAt flowAt inboxItemAt Pinned Effect userInbox
  Classic OwnManagers taken Finished itemFlow TakesPaid FreshInboxes referenceEnv genesis
  pairConfigKey inboxItemKey bootstrapAction initializeAction receiveAction Ends executed)

/-! ## What a scan relies on -/

/-- The flow was read and not found, and a further read decides. -/
def VaaScan.Undecided (scan : VaaScan) : Prop :=
  match scan.phase with
  | .inboxItem | .recipientAta _ => True
  | _ => False

/-- A released item is the manager's, and for a user of the relayer. -/
def UserItem (env : Env) (a : RelayerAccounts) (scan : VaaScan) : Prop :=
  ∀ data inbox, getAccountInfo a false scan.nttInboxItem = .found data →
    decodeNttInboxItem data = some inbox → inbox.releaseStatus = .released →
    ∃ i userWallet minSwapOut, inboxItemAt scan.nttProgramId a scan.nttInboxItem = some i ∧
      i.recipientAddress = userInbox env.runtime userWallet minSwapOut

/-- What a scan takes for granted of a step, given the steps of the chain before it: every
`receive` is the first of its item and takes what the item was paid, none is for an item whose
scan has found no flow and still reads on, and what a scan reads is an item for a user inbox and
an account of the classic token program. -/
structure Orderly (env : Env) (ts : List RelayerTransition) (tr : EnumeratorTransition) : Prop where
  paid : ∀ act, tr.act = .chain act → TakesPaid env ts ⟨tr.pre.world, act, tr.post.world⟩
  apart : ∀ act, tr.act = .chain act → ∀ scan ∈ tr.pre.scans, scan.Undecided →
    act.takes scan.nttInboxItem = false
  item : ∀ i fails scan, tr.act = .read i fails → tr.pre.scans[i]? = some scan →
    scan.phase = .inboxItem → UserItem env tr.pre.world.accounts scan
  classic : ∀ i fails scan inbox, tr.act = .read i fails → tr.pre.scans[i]? = some scan →
    scan.phase = .recipientAta inbox → Classic scan.recvMint tr.pre.world.accounts

/-! ## What a scan knows -/

/-- The item a scan has read as released. -/
structure ReleasedItem (env : Env) (a : RelayerAccounts) (scan : VaaScan) (inbox : NttInboxItem)
    (i : InboxItem) : Prop where
  item_at : inboxItemAt scan.nttProgramId a scan.nttInboxItem = some i
  released : i.releaseStatus = .released
  amount : inbox.amount = i.amount
  recipient : inbox.recipientAddress = i.recipientAddress
  user : ∃ userWallet minSwapOut, i.recipientAddress = userInbox env.runtime userWallet minSwapOut

/-- What the reads of a scan have shown still holds. -/
def PhaseSound (env : Env) (ts : List RelayerTransition) (w : RelayerWorld) (scan : VaaScan) :
    Prop :=
  match scan.phase with
  | .flow => True
  | .inboxItem => taken ts scan.nttInboxItem = true → Finished env ts w scan.nttInboxItem
  | .recipientAta inbox =>
    (taken ts scan.nttInboxItem = true → Finished env ts w scan.nttInboxItem) ∧
      ∃ i, ReleasedItem env w.accounts scan inbox i
  | .done resolution => ∀ flow, resolution.flow = some flow → flow.status = .closed →
      flow.pubkey = scan.nttInboxItem ∧ Finished env ts w scan.nttInboxItem

structure ScanSound (env : Env) (configPda : Pubkey) (ts : List RelayerTransition)
    (w : RelayerWorld) (scan : VaaScan) : Prop where
  config : ∃ c, pairConfigAt w.accounts configPda = some c ∧
    c.receiveNttProgram scan.leg.direction = scan.nttProgramId ∧
    c.receiveMint scan.leg.direction = scan.recvMint
  address : ∃ seeds,
    (env.runtime.findProgramAddress seeds scan.nttProgramId).1 = scan.nttInboxItem
  phase : PhaseSound env ts w scan

/-- Whatever is remembered as closed is finished, and the scans are sound. -/
structure EnumeratorSound (env : Env) (configPda : Pubkey) (ts : List RelayerTransition)
    (s : Enumerator) : Prop where
  cached : ∀ k, s.cached k = true → Finished env ts s.world k
  scans : ∀ scan ∈ s.scans, ScanSound env configPda ts s.world scan

/-! ## The chain moves on -/

section

variable {env : Env} {configPda : Pubkey} {ts : List RelayerTransition} {w w' : RelayerWorld}
variable {act : Action}

theorem not_takes_of_finished (hpaid : TakesPaid env ts ⟨w, act, w'⟩) {k : Pubkey}
    (h : Finished env ts w k) : act.takes k = false := by
  cases act with
  | receive ctx accs args =>
      have hfirst := (hpaid ctx accs args rfl).1
      simp only [Action.takes, decide_eq_false_iff_not]
      rintro rfl
      rw [h.taken] at hfirst
      cases hfirst
  | _ => rfl

theorem ReleasedItem.step (hl : env.Lawful) (hpin : Pinned env w) (he : Effect env w act w')
    {scan : VaaScan} {inbox : NttInboxItem} {i : InboxItem}
    (hp : (env.nttMint scan.nttProgramId).isSome)
    (h : ReleasedItem env w.accounts scan inbox i) :
    ∃ j, ReleasedItem env w'.accounts scan inbox j := by
  obtain ⟨j, hj, hev⟩ := (he.ambient hl hpin).item _ hp _ _ h.item_at
  refine ⟨j, hj, ?_, h.amount.trans hev.amount.symm, h.recipient.trans hev.recipient.symm, ?_⟩
  · have hstage := hev.stage
    rw [h.released] at hstage
    cases hj : j.releaseStatus with
    | released => rfl
    | notApproved | releaseAfterDelay _ =>
        rw [hj] at hstage
        simp [Relayer.ReleaseStatus.stage] at hstage
  · obtain ⟨userWallet, minSwapOut, huser⟩ := h.user
    exact ⟨userWallet, minSwapOut, hev.recipient.trans huser⟩

/-- A step that does not receive the item of an undecided scan leaves it sound. -/
theorem ScanSound.step (hl : env.Lawful) (hpin : Pinned env w) (he : Effect env w act w')
    (hpaid : TakesPaid env ts ⟨w, act, w'⟩) {scan : VaaScan}
    (hapart : scan.Undecided → act.takes scan.nttInboxItem = false)
    (h : ScanSound env configPda ts w scan) :
    ScanSound env configPda (ts ++ [⟨w, act, w'⟩]) w' scan := by
  obtain ⟨c, hc, hprogram, hmint⟩ := h.config
  obtain ⟨c', hc', hstat⟩ := he.pair_kept hc
  have hp : (env.nttMint scan.nttProgramId).isSome :=
    hprogram ▸ hpin.receiveNttProgram hc scan.leg.direction
  have hknown : act.takes scan.nttInboxItem = false →
      (taken ts scan.nttInboxItem = true → Finished env ts w scan.nttInboxItem) →
      taken (ts ++ [⟨w, act, w'⟩]) scan.nttInboxItem = true →
        Finished env (ts ++ [⟨w, act, w'⟩]) w' scan.nttInboxItem := by
    intro hact hfinished htaken
    rw [Relayer.taken_snoc, hact, Bool.or_false] at htaken
    exact Relayer.finished_step hl he hact (hfinished htaken)
  refine ⟨⟨c', hc', (hstat.receiveNttProgram _).trans hprogram, (hstat.receiveMint _).trans hmint⟩,
    h.address, ?_⟩
  have hphase := h.phase
  unfold PhaseSound at hphase ⊢
  unfold VaaScan.Undecided at hapart
  cases hscan : scan.phase with
  | flow => trivial
  | inboxItem =>
      rw [hscan] at hphase hapart
      exact hknown (hapart trivial) hphase
  | recipientAta inbox =>
      rw [hscan] at hphase hapart
      obtain ⟨hfinished, i, hi⟩ := hphase
      exact ⟨hknown (hapart trivial) hfinished, hi.step hl hpin he hp⟩
  | done resolution =>
      rw [hscan] at hphase
      intro flow hflow hclosed
      obtain ⟨hkey, hfinished⟩ := hphase flow hflow hclosed
      exact ⟨hkey, Relayer.finished_step hl he (not_takes_of_finished hpaid hfinished) hfinished⟩

theorem EnumeratorSound.chain (hl : env.Lawful) {s : Enumerator} (hpin : Pinned env s.world)
    (he : Effect env s.world act w') (hpaid : TakesPaid env ts ⟨s.world, act, w'⟩)
    (hapart : ∀ scan ∈ s.scans, scan.Undecided → act.takes scan.nttInboxItem = false)
    (h : EnumeratorSound env configPda ts s) :
    EnumeratorSound env configPda (ts ++ [⟨s.world, act, w'⟩]) { s with world := w' } where
  cached k hk := Relayer.finished_step hl he (not_takes_of_finished hpaid (h.cached k hk))
    (h.cached k hk)
  scans scan hscan := (h.scans scan hscan).step hl hpin he hpaid (hapart scan hscan)

end

/-! ## The enumerator reads -/

theorem resolveNttVaa_address {rt : RelayerRuntime} {vaaBytes : Bytes} {nttProgramId : Pubkey}
    {transceiverProgramId : Option Pubkey} {resolved : ResolvedNttVaa}
    (h : resolveNttVaa rt vaaBytes nttProgramId transceiverProgramId = .ok resolved) :
    ∃ seeds, (rt.findProgramAddress seeds nttProgramId).1 = resolved.nttInboxItem := by
  unfold resolveNttVaa at h
  cases hvaa : parseVaa vaaBytes with
  | error e =>
      rw [hvaa] at h
      cases h
  | ok vaa =>
      cases htransceiver : parseTransceiverMessage vaa.payload with
      | error e =>
          simp only [hvaa, htransceiver, bind, Except.bind] at h
          cases h
      | ok transceiver =>
          cases hmanager : parseNttManagerMessage transceiver.nttManagerPayload with
          | error e =>
              simp only [hvaa, htransceiver, hmanager, bind, Except.bind] at h
              cases h
          | ok manager =>
              simp only [hvaa, htransceiver, hmanager, bind, Except.bind, pure, Except.pure] at h
              obtain rfl := Except.ok.inj h
              exact ⟨_, rfl⟩

section

variable {env : Env} {configPda : Pubkey} {s : Enumerator} {ts : List RelayerTransition}
variable {leg : VaaLeg} {item : WormholescanVaa}

/-- A scan starts under the config and knows nothing. -/
theorem scanSound_of_begin {scan : VaaScan}
    (h : s.begin env.runtime configPda leg item = some (.ok scan)) :
    ScanSound env configPda ts s.world scan := by
  obtain ⟨c, hc, hbegin⟩ := Option.map_eq_some_iff.mp h
  unfold VaaScan.begin at hbegin
  cases hresolved : resolveNttVaa env.runtime item.vaa (c.receiveNttProgram leg.direction) none with
  | error e =>
      rw [hresolved] at hbegin
      cases hbegin
  | ok resolved =>
      simp only [hresolved] at hbegin
      split at hbegin
      · cases hbegin
      · obtain rfl := Except.ok.inj hbegin
        exact ⟨⟨c, hc, rfl, rfl⟩, resolveNttVaa_address hresolved, trivial⟩

/-- What is returned at once as closed is remembered. -/
theorem cached_of_begin {resolution : VaaResolution} {flow : ScannedFlow}
    (h : s.begin env.runtime configPda leg item = some (.error resolution))
    (hflow : resolution.flow = some flow) : s.cached flow.pubkey = true := by
  obtain ⟨c, -, hbegin⟩ := Option.map_eq_some_iff.mp h
  unfold VaaScan.begin at hbegin
  cases hresolved : resolveNttVaa env.runtime item.vaa (c.receiveNttProgram leg.direction) none with
  | error e =>
      rw [hresolved] at hbegin
      obtain rfl := Except.error.inj hbegin
      cases hflow
  | ok resolved =>
      simp only [hresolved] at hbegin
      split at hbegin
      · obtain rfl := Except.error.inj hbegin
        obtain rfl := Option.some.inj hflow
        assumption
      · cases hbegin

end

section

variable {env : Env} {configPda : Pubkey} {w₀ w : RelayerWorld} {ts : List RelayerTransition}
variable {scan : VaaScan} {fails : Bool}
variable (hl : env.Lawful) (hg : Genesis env w₀) (hr : RelayerRun env w₀ ts w)
variable (hmanagers : ∀ u ∈ ts, OwnManagers env u)

include hl hg hr hmanagers

/-- The flow read: one that is missing although the item was received is finished. -/
theorem phaseSound_onFlow (h : ScanSound env configPda ts w scan) :
    PhaseSound env ts w { scan with
      phase := scan.onFlow
        (fetchFlow env.runtime configPda w.accounts fails scan.leg scan.nttInboxItem) } := by
  obtain ⟨c, hc, hprogram, -⟩ := h.config
  have hitem := h.address
  rw [← hprogram] at hitem
  unfold PhaseSound
  cases hread : fetchFlow env.runtime configPda w.accounts fails scan.leg scan.nttInboxItem with
  | missing =>
      intro htaken
      exact Relayer.finished_of_missing hl hg hr hmanagers hc hitem htaken
        (flowAt_of_missing hread)
  | rpcError =>
      intro flow hflow
      cases hflow
  | undecodable =>
      intro flow hflow hclosed
      obtain rfl := Option.some.inj hflow
      cases hclosed
  | resolved status =>
      intro flow hflow hclosed
      obtain rfl := Option.some.inj hflow
      rw [show status = .closed from hclosed] at hread
      exact absurd hread (fetchFlow_ne_closed _ _ _ _ _ _)

omit hl hg hr hmanagers in
/-- The item read. -/
theorem phaseSound_onInboxItem (huser : UserItem env w.accounts scan)
    (hfinished : taken ts scan.nttInboxItem = true → Finished env ts w scan.nttInboxItem) :
    PhaseSound env ts w { scan with
      phase := scan.onInboxItem (getAccountInfo w.accounts fails scan.nttInboxItem) } := by
  have hpending : ∀ flow, some (scan.scanned .pending) = some flow → flow.status = .closed →
      flow.pubkey = scan.nttInboxItem ∧ Finished env ts w scan.nttInboxItem := by
    intro flow hflow hclosed
    obtain rfl := Option.some.inj hflow
    cases hclosed
  unfold PhaseSound VaaScan.onInboxItem
  cases hread : getAccountInfo w.accounts fails scan.nttInboxItem with
  | absent => exact hpending
  | failed => exact hpending
  | found data =>
      obtain rfl := getAccountInfo_ne_failed (by rw [hread]; exact AccountRead.noConfusion)
      cases hdecode : decodeNttInboxItem data with
      | none =>
          simp only [hdecode]
          exact hpending
      | some inbox =>
          by_cases hreleased : inbox.releaseStatus = .released
          · simp only [hdecode, hreleased, ne_eq, not_true_eq_false, if_false]
            obtain ⟨i, userWallet, minSwapOut, hi, huser⟩ := huser data inbox hread hdecode hreleased
            have hagrees := itemsAgree_of_read hi hread hdecode
            have hstatus := hagrees.status
            rw [hreleased] at hstatus
            refine ⟨hfinished, i, hi, ?_, hagrees.amount, hagrees.recipient, userWallet,
              minSwapOut, huser⟩
            cases his : i.releaseStatus with
            | released => rfl
            | notApproved | releaseAfterDelay _ =>
                rw [his] at hstatus
                exact hstatus.elim
          · simp only [hdecode, ne_eq, hreleased, not_false_eq_true, if_true]
            exact hpending

/-- The read of the recipient's account: one that was emptied. -/
theorem phaseSound_onRecipientAta (hi : InboxLaws env) (hfresh : FreshInboxes env w₀)
    (hsign : ∀ u ∈ ts, ∀ userWallet minSwapOut,
      ¬ u.act.SignedBy (userInbox env.runtime userWallet minSwapOut))
    (hpaid : ∀ before u after, ts = before ++ u :: after → TakesPaid env before u)
    (hclassic : Classic scan.recvMint w.accounts) {inbox : NttInboxItem} {i : InboxItem}
    (h : ScanSound env configPda ts w scan) (hitem : ReleasedItem env w.accounts scan inbox i)
    (hfinished : taken ts scan.nttInboxItem = true → Finished env ts w scan.nttInboxItem) :
    PhaseSound env ts w { scan with
      phase := scan.onRecipientAta inbox (getAccountInfo w.accounts fails
        (associatedTokenAddress env.runtime scan.recvMint inbox.recipientAddress)) } := by
  obtain ⟨c, hc, hprogram, hmint⟩ := h.config
  have hp := Relayer.manager_mint hl hg hr hmanagers hc scan.leg.direction
  rw [hprogram, hmint] at hp
  obtain ⟨userWallet, minSwapOut, huser⟩ := hitem.user
  unfold PhaseSound VaaScan.onRecipientAta
  intro flow hflow hclosed
  obtain rfl := Option.some.inj hflow
  refine ⟨rfl, ?_⟩
  simp only [VaaScan.scanned] at hclosed
  split_ifs at hclosed with hfailed hparked
  obtain rfl := getAccountInfo_ne_failed hfailed
  apply hfinished
  refine Relayer.taken_of_short hl hi hg hfresh hr hmanagers
    (fun u hu => hsign u hu userWallet minSwapOut) hpaid hp hclassic hitem.item_at
    hitem.released huser ?_
  rw [hitem.amount, hitem.recipient] at hparked
  exact (balance_le_parkedAmount _ _).trans_lt (not_le.mp hparked)

/-- Whatever the next read returns, the scan stays sound. -/
theorem ScanSound.advance (hi : InboxLaws env) (hfresh : FreshInboxes env w₀)
    (hsign : ∀ u ∈ ts, ∀ userWallet minSwapOut,
      ¬ u.act.SignedBy (userInbox env.runtime userWallet minSwapOut))
    (hpaid : ∀ before u after, ts = before ++ u :: after → TakesPaid env before u)
    (huser : scan.phase = .inboxItem → UserItem env w.accounts scan)
    (hclassic : ∀ inbox, scan.phase = .recipientAta inbox → Classic scan.recvMint w.accounts)
    (h : ScanSound env configPda ts w scan) : ScanSound env configPda ts w
      (scan.advance env.runtime (readsAt env.runtime configPda w.accounts fails scan.leg)) := by
  have hphase := h.phase
  unfold PhaseSound at hphase
  unfold VaaScan.advance
  cases hscan : scan.phase with
  | flow => exact ⟨h.config, h.address, phaseSound_onFlow hl hg hr hmanagers h⟩
  | inboxItem =>
      rw [hscan] at hphase
      exact ⟨h.config, h.address, phaseSound_onInboxItem (huser hscan) hphase⟩
  | recipientAta inbox =>
      rw [hscan] at hphase
      obtain ⟨hfinished, i, hitem⟩ := hphase
      exact ⟨h.config, h.address, phaseSound_onRecipientAta hl hg hr hmanagers hi hfresh hsign
        hpaid (hclassic inbox hscan) h hitem hfinished⟩
  | done resolution => exact h

end

/-! ## Whole runs -/

theorem EnumeratorSound.finish {env : Env} {configPda : Pubkey} {ts : List RelayerTransition}
    {s : Enumerator} {i : ℕ} {scan : VaaScan} {resolution : VaaResolution}
    (hscan : s.scans[i]? = some scan) (hphase : scan.phase = .done resolution)
    (h : EnumeratorSound env configPda ts s) :
    EnumeratorSound env configPda ts (s.finish i scan resolution) := by
  refine ⟨?_, fun other hother => h.scans other (List.mem_of_mem_eraseIdx hother)⟩
  intro k hk
  have hsound := (h.scans scan (List.mem_of_getElem? hscan)).phase
  unfold PhaseSound at hsound
  rw [hphase] at hsound
  simp only [Enumerator.cached, Enumerator.finish, memoize] at hk
  split at hk
  · rename_i flow hflow
    split at hk
    · rename_i hclosed
      obtain ⟨v, hv⟩ := Option.isSome_iff_exists.mp hk
      rcases BoundedMap.get_set_some hv with ⟨rfl, -⟩ | hv
      · exact (hsound flow hflow hclosed).2
      · exact h.cached k (by rw [Enumerator.cached, hv]; rfl)
    · exact h.cached k hk
  · exact h.cached k hk

section

variable {env : Env} {configPda : Pubkey} {s : Enumerator} {ts : List EnumeratorTransition}

/-- Every step of the chain is one of the history, with the steps before it. -/
theorem exists_of_chainSteps {before after : List RelayerTransition} {u : RelayerTransition}
    (h : chainSteps ts = before ++ u :: after) : ∃ init tr rest act,
      ts = init ++ tr :: rest ∧ chainSteps init = before ∧ tr.act = .chain act ∧
        u = ⟨tr.pre.world, act, tr.post.world⟩ := by
  obtain ⟨init, rest, rfl, rfl, hrest⟩ := List.filterMap_eq_append_iff.mp h
  obtain ⟨skipped, tr, rest, rfl, hskipped, htr, -⟩ := List.filterMap_eq_cons_iff.mp hrest
  have hnone := List.filterMap_eq_nil_iff.mpr hskipped
  refine ⟨init ++ skipped, tr, rest, ?_⟩
  cases hact : tr.act with
  | chain act =>
      rw [hact] at htr
      refine ⟨act, by simp, ?_, rfl, (Option.some.inj htr).symm⟩
      rw [chainSteps, List.filterMap_append, hnone, List.append_nil]
  | _ =>
      rw [hact] at htr
      cases htr

/-- Every `receive` of an orderly history is the first of its item and takes what was paid. -/
theorem takesPaid_of_orderly
    (h : ∀ before tr after, ts = before ++ tr :: after → Orderly env (chainSteps before) tr) :
    ∀ before u after, chainSteps ts = before ++ u :: after → TakesPaid env before u := by
  intro before u after hu
  obtain ⟨init, tr, rest, act, hts, rfl, hact, rfl⟩ := exists_of_chainSteps hu
  exact (h init tr rest hts).paid act hact

/-- An orderly step of the enumerator, or of the chain under it. -/
theorem EnumeratorSound.step (hl : env.Lawful) (hi : InboxLaws env) {w₀ : RelayerWorld}
    (hg : Genesis env w₀) (hfresh : FreshInboxes env w₀)
    (hr : RelayerRun env w₀ (chainSteps ts) s.world)
    (hmanagers : ∀ u ∈ chainSteps ts, OwnManagers env u)
    (hsign : ∀ u ∈ chainSteps ts, ∀ userWallet minSwapOut,
      ¬ u.act.SignedBy (userInbox env.runtime userWallet minSwapOut))
    (hpaid : ∀ before u after, chainSteps ts = before ++ u :: after → TakesPaid env before u)
    {event : EnumeratorEvent} {s' : Enumerator} (he : EnumeratorEffect env configPda s event s')
    (hnow : Orderly env (chainSteps ts) ⟨s, event, s'⟩)
    (h : EnumeratorSound env configPda (chainSteps ts) s) :
    EnumeratorSound env configPda (chainSteps (ts ++ [⟨s, event, s'⟩])) s' := by
  cases he with
  | chain hact =>
      have hpin := (Relayer.run_effects hl hg.pinned hr).1
      rw [chainSteps_chain]
      exact h.chain hl hpin (hact.effect hl hpin) (hnow.paid _ rfl) (hnow.apart _ rfl)
  | started hbegin =>
      rw [chainSteps_own (fun _ => EnumeratorEvent.noConfusion)]
      refine ⟨h.cached, ?_⟩
      intro scan hscan
      rcases List.mem_append.mp hscan with hscan | hscan
      · exact h.scans scan hscan
      · rw [List.mem_singleton.mp hscan]
        exact scanSound_of_begin hbegin
  | returned hbegin =>
      rw [chainSteps_own (fun _ => EnumeratorEvent.noConfusion)]
      exact h
  | @read i fails scan hscan =>
      rw [chainSteps_own (fun _ => EnumeratorEvent.noConfusion)]
      refine ⟨h.cached, ?_⟩
      intro other hother
      rcases List.mem_or_eq_of_mem_set hother with hother | rfl
      · exact h.scans other hother
      · exact (h.scans scan (List.mem_of_getElem? hscan)).advance hl hg hr hmanagers hi hfresh
          hsign hpaid (hnow.item i fails scan rfl hscan)
          (fun inbox => hnow.classic i fails scan inbox rfl hscan)
  | finished hscan hphase =>
      rw [chainSteps_own (fun _ => EnumeratorEvent.noConfusion)]
      exact h.finish hscan hphase

/-- In an orderly run the enumerator is sound at all times. -/
theorem run_enumeratorSound (hl : env.Lawful) (hi : InboxLaws env) {w₀ : RelayerWorld}
    (hg : Genesis env w₀) (hfresh : FreshInboxes env w₀)
    (hr : EnumeratorRun env configPda (makeEnumerator w₀) ts s)
    (hmanagers : ∀ u ∈ chainSteps ts, OwnManagers env u)
    (hsign : ∀ u ∈ chainSteps ts, ∀ userWallet minSwapOut,
      ¬ u.act.SignedBy (userInbox env.runtime userWallet minSwapOut))
    (horderly : ∀ before tr after, ts = before ++ tr :: after →
      Orderly env (chainSteps before) tr) :
    EnumeratorSound env configPda (chainSteps ts) s := by
  induction hr with
  | nil =>
      refine ⟨?_, by simp [makeEnumerator]⟩
      intro k hk
      cases hk
  | @snoc s s' event ts hr hstep ih =>
      have hbefore : ∀ before tr after, ts = before ++ tr :: after →
          Orderly env (chainSteps before) tr := by
        rintro before tr after rfl
        exact horderly before tr (after ++ [⟨s, event, s'⟩]) (by simp)
      have hsub : ∀ u ∈ chainSteps ts, u ∈ chainSteps (ts ++ [⟨s, event, s'⟩]) := by
        intro u hu
        rw [chainSteps_append]
        exact List.mem_append_left _ hu
      have hmanagers' : ∀ u ∈ chainSteps ts, OwnManagers env u :=
        fun u hu => hmanagers u (hsub u hu)
      have hsign' : ∀ u ∈ chainSteps ts, ∀ userWallet minSwapOut,
          ¬ u.act.SignedBy (userInbox env.runtime userWallet minSwapOut) :=
        fun u hu => hsign u (hsub u hu)
      exact (ih hmanagers' hsign' hbefore).step hl hi hg hfresh (run_chain hr) hmanagers' hsign'
        (takesPaid_of_orderly hbefore) hstep.effect (horderly ts _ [] rfl)

/-- What is returned as closed in this step is finished. -/
theorem EnumeratorSound.returns {ts : List RelayerTransition} {event : EnumeratorEvent}
    {resolution : VaaResolution} {flow : ScannedFlow}
    (h : EnumeratorSound env configPda ts s)
    (hreturns : s.returns env.runtime configPda event = some resolution)
    (hflow : resolution.flow = some flow) (hclosed : flow.status = .closed) :
    Finished env ts s.world flow.pubkey := by
  cases event with
  | chain act => cases hreturns
  | read i fails => cases hreturns
  | start leg item =>
      simp only [Enumerator.returns] at hreturns
      cases hbegin : s.begin env.runtime configPda leg item with
      | none =>
          rw [hbegin] at hreturns
          cases hreturns
      | some result =>
          cases result with
          | ok scan =>
              rw [hbegin] at hreturns
              cases hreturns
          | error r =>
              rw [hbegin] at hreturns
              obtain rfl := Option.some.inj hreturns
              exact h.cached _ (cached_of_begin hbegin hflow)
  | finish i =>
      simp only [Enumerator.returns] at hreturns
      cases hscan : s.scans[i]? with
      | none =>
          rw [hscan] at hreturns
          cases hreturns
      | some scan =>
          have hsound := (h.scans scan (List.mem_of_getElem? hscan)).phase
          simp only [hscan] at hreturns
          unfold PhaseSound at hsound
          cases hphase : scan.phase with
          | done r =>
              simp only [hphase] at hreturns hsound
              obtain rfl := Option.some.inj hreturns
              obtain ⟨hkey, hfinished⟩ := hsound flow hflow hclosed
              rwa [hkey]
          | _ =>
              simp only [hphase] at hreturns
              cases hreturns

end

/-- Whenever a scan returns `Closed` for an inbox item, a flow was received for the item and was
sent or refunded, and none is open. -/
def ClosedFinal (env : Env) (configPda : Pubkey) (ts : List EnumeratorTransition) : Prop :=
  ∀ before tr after resolution flow, ts = before ++ tr :: after →
    tr.pre.returns env.runtime configPda tr.act = some resolution →
    resolution.flow = some flow → flow.status = .closed →
    Finished env (chainSteps before) tr.pre.world flow.pubkey

/-- In a run in which every step is orderly a flow that is found to be closed is closed for good. -/
theorem closed_final {env : Env} (hl : env.Lawful) (hi : InboxLaws env) {configPda : Pubkey}
    {w₀ : RelayerWorld} {s : Enumerator} {ts : List EnumeratorTransition} (hg : Genesis env w₀)
    (hfresh : FreshInboxes env w₀) (hr : EnumeratorRun env configPda (makeEnumerator w₀) ts s)
    (hmanagers : ∀ u ∈ chainSteps ts, OwnManagers env u)
    (hsign : ∀ u ∈ chainSteps ts, ∀ userWallet minSwapOut,
      ¬ u.act.SignedBy (userInbox env.runtime userWallet minSwapOut))
    (horderly : ∀ before tr after, ts = before ++ tr :: after →
      Orderly env (chainSteps before) tr) : ClosedFinal env configPda ts := by
  rintro before tr after resolution flow rfl hreturns hflow hclosed
  have hsub : ∀ u ∈ chainSteps before, u ∈ chainSteps (before ++ tr :: after) := by
    intro u hu
    rw [chainSteps_append]
    exact List.mem_append_left _ hu
  have hsound := run_enumeratorSound hl hi hg hfresh hr.split.1
    (fun u hu => hmanagers u (hsub u hu)) (fun u hu => hsign u (hsub u hu)) (by
      rintro init u rest rfl
      exact horderly init u (rest ++ tr :: after) (by simp))
  exact hsound.returns hreturns hflow hclosed

/-- The scan returns `Closed`, and the flow is open. -/
theorem closed_while_open : ∃ ts s, EnumeratorRun referenceEnv pairConfigKey
      (makeEnumerator (genesis 1000000000)) ts s ∧
    ts.map Transition.act = staleEvents ∧ ¬ ClosedFinal referenceEnv pairConfigKey ts := by
  have hready : Ends (fun w => pairReady w ∧ nextPhase w .flow = .inboxItem)
      (executed 1000000000 [bootstrapAction, initializeAction]) := by decide +kernel
  have hreceived : Ends (fun w => nextPhase w (nextPhase w .inboxItem) = .done depositClosed ∧
      (flowAt w.accounts (itemFlow referenceEnv.runtime .deposit pairConfigKey
        inboxItemKey)).isSome)
      (executed 1000000000 [bootstrapAction, initializeAction, receiveAction]) := by
    decide +kernel
  obtain ⟨chain, w, hr, hacts, hclosed, hopen⟩ :=
    Relayer.run_of_executed (by decide +kernel) hreceived
  obtain ⟨before, last, rfl, hbefore, hlast⟩ := List.map_eq_append_iff.mp
    (show chain.map Transition.act = [bootstrapAction, initializeAction] ++ [receiveAction]
      from hacts)
  obtain ⟨tr, rfl, htr⟩ := List.map_eq_singleton_iff.mp hlast
  obtain ⟨hrun, hreceive, rfl⟩ := Run.snoc_inv hr
  rw [htr] at hreceive
  obtain ⟨hpair, hmissing⟩ := Relayer.holds_of_executed hready hrun hbefore
  have hflow := step_read tr.pre .flow
  have hata := step_read tr.post (nextPhase tr.post .inboxItem)
  rw [hmissing] at hflow
  rw [hclosed] at hata
  have hscanned := (((((run_quiet hrun).snoc (step_start hpair)).snoc hflow).snoc
    (step_chain .inboxItem hreceive)).snoc (step_read tr.post .inboxItem)).snoc hata
  refine ⟨_, _, hscanned.snoc (step_finish tr.post depositClosed), ?_, ?_⟩
  · simp only [List.map_append, quiet_acts, hbefore]
    rfl
  · intro hfinal
    have hfinished := hfinal _ _ [] depositClosed _ rfl rfl rfl rfl
    have hnone : flowAt tr.post.accounts (itemFlow referenceEnv.runtime .deposit pairConfigKey
        inboxItemKey) = none := hfinished.none_open .deposit pairConfigKey
    rw [hnone] at hopen
    cases hopen

theorem orderly_quiet {ts : List RelayerTransition} {u : RelayerTransition}
    (h : TakesPaid referenceEnv ts u) : Orderly referenceEnv ts (quietStep u) where
  paid act hact := by
    obtain rfl := EnumeratorEvent.chain.inj hact
    exact h
  apart _ _ scan hscan := by cases hscan
  item _ _ _ hact := by cases hact
  classic _ _ _ _ hact := by cases hact

theorem orderly_start (ts : List RelayerTransition) (s s' : Enumerator) (leg : VaaLeg)
    (item : WormholescanVaa) : Orderly referenceEnv ts ⟨s, .start leg item, s'⟩ where
  paid _ hact := by cases hact
  apart _ hact := by cases hact
  item _ _ _ hact := by cases hact
  classic _ _ _ _ hact := by cases hact

theorem orderly_finish (ts : List RelayerTransition) (s s' : Enumerator) (i : ℕ) :
    Orderly referenceEnv ts ⟨s, .finish i, s'⟩ where
  paid _ hact := by cases hact
  apart _ hact := by cases hact
  item _ _ _ hact := by cases hact
  classic _ _ _ _ hact := by cases hact

theorem orderly_read {w : RelayerWorld} (h : depositReadable w) (ts : List RelayerTransition)
    (phase : ScanPhase) (s' : Enumerator) :
    Orderly referenceEnv ts ⟨scanning w phase, .read 0 false, s'⟩ where
  paid _ hact := by cases hact
  apart _ hact := by cases hact
  item i fails scan hact hscan _ := by
    cases hact
    obtain rfl := Option.some.inj hscan
    obtain ⟨item, hitem, hrecipient⟩ := Option.map_eq_some_iff.mp h.1
    exact fun _ _ _ _ _ => ⟨item, _, _, hitem, hrecipient⟩
  classic i fails scan inbox hact hscan _ := by
    cases hact
    obtain rfl := Option.some.inj hscan
    exact fun _ _ => h.2

/-- Scans behind a run of the chain are orderly if the run is. -/
theorem orderly_behind {chain : List RelayerTransition} {own : List EnumeratorTransition}
    (hpaid : ∀ before u after, chain = before ++ u :: after → TakesPaid referenceEnv before u)
    (hown : chainSteps own = []) (hreads : ∀ tr ∈ own, ∀ ts, Orderly referenceEnv ts tr)
    (before : List EnumeratorTransition) (tr : EnumeratorTransition)
    (after : List EnumeratorTransition)
    (hts : chain.map quietStep ++ own = before ++ tr :: after) :
    Orderly referenceEnv (chainSteps before) tr := by
  have hmem : tr ∈ chain.map quietStep ++ own := by simp [hts]
  rcases List.mem_append.mp hmem with hmem | hmem
  · obtain ⟨u, -, rfl⟩ := List.mem_map.mp hmem
    apply orderly_quiet
    apply hpaid (chainSteps before) u (chainSteps after)
    calc chain = chainSteps (chain.map quietStep ++ own) := (chainSteps_behind chain hown).symm
      _ = chainSteps before ++ u :: chainSteps after := by
          rw [hts, chainSteps_append]
          rfl
  · exact hreads tr hmem _

/-- Behind the end of the deposit the scan is right. -/
theorem closed_final_sent : ∃ ts s, EnumeratorRun referenceEnv pairConfigKey
      (makeEnumerator (genesis 1000000000)) ts s ∧ ts.map Transition.act = sentEvents ∧
    (∃ tr ∈ ts, tr.pre.returns referenceEnv.runtime pairConfigKey tr.act = some depositClosed) ∧
    ClosedFinal referenceEnv pairConfigKey ts := by
  have hend : Ends (fun w => pairReady w ∧ depositReadable w ∧
      nextPhase w (nextPhase w (nextPhase w .flow)) = .done depositClosed)
      (executed 1000000000 sentActions) := by decide +kernel
  obtain ⟨chain, w, hr, hacts, hpair, hreadable, hclosed⟩ :=
    Relayer.run_of_executed (by decide +kernel) hend
  have hata := step_read w (nextPhase w (nextPhase w .flow))
  rw [hclosed] at hata
  have hscanned := ((((run_quiet hr).snoc (step_start hpair)).snoc (step_read w .flow)).snoc
    (step_read w (nextPhase w .flow))).snoc hata
  have hrun := hscanned.snoc (step_finish w depositClosed)
  refine ⟨_, _, hrun, ?_, ⟨_, List.mem_append_right _ (List.mem_singleton_self _), rfl⟩, ?_⟩
  · simp only [List.map_append, quiet_acts, hacts]
    rfl
  simp only [List.append_assoc] at hrun ⊢
  refine closed_final Relayer.referenceEnv_lawful Relayer.referenceEnv_inbox
    (Relayer.genesis_ok _) genesis_fresh hrun ?_ ?_ ?_
  · rw [chainSteps_behind chain rfl]
    exact sent_ownManagers hacts
  · rw [chainSteps_behind chain rfl]
    exact sent_not_signedBy hacts
  · refine orderly_behind (sent_takesPaid hacts hr) rfl ?_
    intro tr htr ts
    simp only [List.cons_append, List.nil_append, List.mem_cons, List.not_mem_nil, or_false] at htr
    rcases htr with rfl | rfl | rfl | rfl | rfl
    · exact orderly_start _ _ _ _ _
    · exact orderly_read hreadable _ _ _
    · exact orderly_read hreadable _ _ _
    · exact orderly_read hreadable _ _ _
    · exact orderly_finish _ _ _ _

end FogoYield.Cranker
