import FogoYield.Model.Cranker.Reads
import FogoYield.Verification.Cranker.InboxItems
import FogoYield.Verification.Relayer.Finished
import FogoYield.Verification.Sdk.Addresses

/-! # What a scan reads

On a chain that stands still a scan returns what `scanWormholescanVaa` does, and each of its reads
shows what is on the chain. Everything the enumerator does itself leaves the chain alone. -/

namespace FogoYield.Cranker

open FogoYield.Library FogoYield.Solana FogoYield.Sdk
open FogoYield.Relayer (RelayerRuntime RelayerAccounts RelayerRun RelayerTransition InboxItem Env
  Action flowAt inboxItemAt itemFlow)

/-! ## A chain that stands still -/

/-- A scan that found no flow. -/
theorem missing_at_rest (rt : RelayerRuntime) (reads : VaaReads) (scan : VaaScan)
    (h : scan.phase = .inboxItem) :
    ((scan.advance rt reads).advance rt reads).phase =
      .done ⟨scan.item.sequence, some (scan.scanned ((classifyMissingFlow rt scan.recvMint
        scan.nttInboxItem reads).getD .pending)), true⟩ := by
  have hnext : scan.advance rt reads =
      { scan with phase := scan.onInboxItem (reads.inboxItem scan.nttInboxItem) } := by
    rw [VaaScan.advance, h]
  rw [hnext, classifyMissingFlow]
  cases reads.inboxItem scan.nttInboxItem with
  | absent => rfl
  | failed => rfl
  | found data =>
      cases hdecode : decodeNttInboxItem data with
      | none => simp [VaaScan.onInboxItem, VaaScan.advance, hdecode]
      | some inbox =>
          by_cases hreleased : inbox.releaseStatus = .released
          · simp only [VaaScan.onInboxItem, VaaScan.advance, hdecode, hreleased, ne_eq,
              not_true_eq_false, if_false, VaaScan.onRecipientAta]
            split_ifs <;> rfl
          · simp [VaaScan.onInboxItem, VaaScan.advance, hdecode, hreleased]

/-- If nothing happens between its reads, a scan returns what `scanWormholescanVaa` does. -/
theorem scan_at_rest (rt : RelayerRuntime) (leg : VaaLeg) (nttProgramId recvMint : Pubkey)
    (terminalCache : Pubkey → Bool) (reads : VaaReads) (item : WormholescanVaa) :
    match VaaScan.begin rt leg nttProgramId recvMint terminalCache item with
    | .error resolution =>
      scanWormholescanVaa rt leg nttProgramId recvMint terminalCache reads item = resolution
    | .ok scan =>
      (((scan.advance rt reads).advance rt reads).advance rt reads).phase = .done
        (scanWormholescanVaa rt leg nttProgramId recvMint terminalCache reads item) := by
  unfold VaaScan.begin scanWormholescanVaa
  cases resolveNttVaa rt item.vaa nttProgramId none with
  | error _ => rfl
  | ok resolved =>
      dsimp only
      by_cases hcached : terminalCache resolved.nttInboxItem = true
      · rw [if_pos hcached, if_pos hcached]
        rfl
      · rw [if_neg hcached, if_neg hcached]
        cases hflow : reads.flow resolved.nttInboxItem with
        | resolved status => simp [VaaScan.advance, VaaScan.onFlow, VaaScan.scanned, hflow]
        | undecodable => simp [VaaScan.advance, VaaScan.onFlow, VaaScan.scanned, hflow]
        | rpcError => simp [VaaScan.advance, VaaScan.onFlow, hflow]
        | missing =>
            refine missing_at_rest rt reads _ ?_
            simp [VaaScan.advance, VaaScan.onFlow, hflow]

/-! ## What the reads say -/

section

variable {a : RelayerAccounts} {k : Pubkey}

theorem readSplTokenAmount_token (t : TokenAccount) :
    readSplTokenAmount (tokenAccountData t) = some t.amount.toNat := by
  have hkey : ∀ k : Pubkey, (keyData k).length = 32 := by
    intro k
    simp [keyData]
  have hslice : Relayer.slice (tokenAccountData t) 64 8 = leBytes 8 t.amount.toNat := by
    simp only [tokenAccountData, Relayer.slice, List.append_assoc]
    rw [← List.append_assoc (keyData t.mint), List.drop_left' (by simp [hkey]),
      List.take_left' (by simp)]
  rw [readSplTokenAmount, if_neg, hslice, ofLeBytes_leBytes 8 _ t.amount.toNat_lt]
  simp only [tokenAccountData, List.length_append, hkey, leBytes_length]
  omega

/-- A read of a token account shows its balance. -/
theorem balance_le_parkedAmount (a : RelayerAccounts) (k : Pubkey) :
    balance a k ≤ parkedAmount (getAccountInfo a false k) := by
  cases ht : tokenAt a k with
  | none => simp [balance, ht]
  | some t =>
      have hread : getAccountInfo a false k = .found (tokenAccountData t) := by
        simp [getAccountInfo, (tokenAt_eq_some.mp ht).2]
      rw [balance_of_tokenAt ht, hread, parkedAmount, readSplTokenAmount_token]
      exact le_refl _

theorem getAccountInfo_ne_failed {fails : Bool} (h : getAccountInfo a fails k ≠ .failed) :
    fails = false := by
  cases fails with
  | false => rfl
  | true => exact absurd rfl h

theorem tryLoad_disc {data : Bytes} {i : InboxItem} (h : InboxItem.tryLoad data = .ok i) :
    ∃ body, data = Relayer.inboxItemDisc ++ body := by
  simp only [InboxItem.tryLoad, bind_eq_ok, require_eq_ok, exists_const] at h
  exact ⟨data.drop 8, by rw [← h.1.2, List.take_append_drop]⟩

/-- A read of an inbox item shows what the program reads there. -/
theorem itemsAgree_of_read {p : Pubkey} {i : InboxItem} {data : Bytes} {inbox : NttInboxItem}
    (hi : inboxItemAt p a k = some i) (hread : getAccountInfo a false k = .found data)
    (hdecode : decodeNttInboxItem data = some inbox) : ItemsAgree i inbox := by
  have hload := (Relayer.inboxItemAt_eq_some.mp hi).2
  obtain ⟨body, hbody⟩ := tryLoad_disc hload
  have hdata : data = inboxItemDiscriminator ++ body := by
    have hne : (a k).bytes ≠ [] := by simp [hbody, Relayer.inboxItemDisc]
    rw [← show (a k).bytes = inboxItemDiscriminator ++ body from hbody]
    cases hkind : (a k).data with
    | raw bytes => simpa [getAccountInfo, hkind, eq_comm] using hread
    | _ => exact absurd (by simp [Account.bytes, hkind]) hne
  rw [hbody] at hload
  rw [hdata] at hdecode
  obtain ⟨head, s, h, hbool, hs, rfl⟩ := tryLoad_eq_ok.mp hload
  obtain ⟨head', t, h', ht, rfl⟩ := decodeNttInboxItem_eq_some.mp hdecode
  obtain rfl := Option.some.inj (h.symm.trans h')
  exact itemsAgree_of_head hbool hs ht

/-- A flow that a read does not find is not there. -/
theorem flowAt_of_missing {rt : RelayerRuntime} {configPda : Pubkey} {fails : Bool}
    {leg : VaaLeg} (h : fetchFlow rt configPda a fails leg k = .missing) :
    flowAt a (itemFlow rt leg.direction configPda k) = none := by
  have hpda : (findFlowPda rt leg.direction configPda k Relayer.programId).1 =
      itemFlow rt leg.direction configPda k := by
    rw [findFlowPda, flowPdaSeeds_eq, itemFlow]
  cases hf : flowAt a (itemFlow rt leg.direction configPda k) with
  | none => rfl
  | some flow =>
      have hdata := Relayer.programAt_of_flowAt hf
      rw [programAt_eq_some] at hdata
      cases fails <;> simp [fetchFlow, hpda, hf, hdata.2, Data.isEmpty] at h

theorem fetchFlow_ne_closed (rt : RelayerRuntime) (configPda : Pubkey) (a : RelayerAccounts)
    (fails : Bool) (leg : VaaLeg) (k : Pubkey) :
    fetchFlow rt configPda a fails leg k ≠ .resolved .closed := by
  intro h
  simp only [fetchFlow] at h
  split_ifs at h
  split at h
  · rename_i flow _
    cases hstatus : flow.status <;> simp [hstatus, describeStatus] at h
  · cases h

end

/-! ## Steps -/

/-- What each step of the enumerator does. -/
inductive EnumeratorEffect (env : Env) (configPda : Pubkey) (s : Enumerator) :
    EnumeratorEvent → Enumerator → Prop where
  | chain {act world} : Relayer.Step env s.world act world →
    EnumeratorEffect env configPda s (.chain act) { s with world := world }
  | started {leg item scan} : s.begin env.runtime configPda leg item = some (.ok scan) →
    EnumeratorEffect env configPda s (.start leg item) { s with scans := s.scans ++ [scan] }
  | returned {leg item resolution} :
    s.begin env.runtime configPda leg item = some (.error resolution) →
    EnumeratorEffect env configPda s (.start leg item) s
  | read {i fails scan} : s.scans[i]? = some scan →
    EnumeratorEffect env configPda s (.read i fails) (s.read env.runtime configPda i fails scan)
  | finished {i scan resolution} : s.scans[i]? = some scan → scan.phase = .done resolution →
    EnumeratorEffect env configPda s (.finish i) (s.finish i scan resolution)

theorem Enumerator.Step.effect {env : Env} {configPda : Pubkey} {s s' : Enumerator}
    {event : EnumeratorEvent} (h : Enumerator.Step env configPda s event s') :
    EnumeratorEffect env configPda s event s' := by
  obtain ⟨htrusted, happly⟩ := h
  cases event with
  | chain act =>
      simp only [Enumerator.apply] at happly
      cases hact : act.apply env.runtime s.world with
      | ok world =>
          rw [hact] at happly
          obtain rfl := Except.ok.inj happly
          exact .chain ⟨htrusted act rfl, hact⟩
      | error err =>
          rw [hact] at happly
          cases happly
  | start leg item =>
      simp only [Enumerator.apply] at happly
      cases hbegin : s.begin env.runtime configPda leg item with
      | none =>
          rw [hbegin] at happly
          cases happly
      | some result =>
          rw [hbegin] at happly
          cases result with
          | ok scan =>
              obtain rfl := Except.ok.inj happly
              exact .started hbegin
          | error resolution =>
              obtain rfl := Except.ok.inj happly
              exact .returned hbegin
  | read i fails =>
      simp only [Enumerator.apply] at happly
      cases hscan : s.scans[i]? with
      | none =>
          rw [hscan] at happly
          cases happly
      | some scan =>
          rw [hscan] at happly
          obtain rfl := Except.ok.inj happly
          exact .read hscan
  | finish i =>
      simp only [Enumerator.apply] at happly
      cases hscan : s.scans[i]? with
      | none =>
          rw [hscan] at happly
          cases happly
      | some scan =>
          simp only [hscan] at happly
          cases hphase : scan.phase with
          | done resolution =>
              simp only [hphase] at happly
              obtain rfl := Except.ok.inj happly
              exact .finished hscan hphase
          | _ =>
              simp only [hphase] at happly
              cases happly

/-- The steps of the chain in a history of the enumerator. -/
def chainSteps (ts : List EnumeratorTransition) : List RelayerTransition :=
  ts.filterMap fun tr =>
    match tr.act with
    | .chain act => some ⟨tr.pre.world, act, tr.post.world⟩
    | _ => none

theorem chainSteps_append (ts us : List EnumeratorTransition) :
    chainSteps (ts ++ us) = chainSteps ts ++ chainSteps us :=
  List.filterMap_append

theorem chainSteps_chain (ts : List EnumeratorTransition) (s s' : Enumerator) (act : Action) :
    chainSteps (ts ++ [⟨s, .chain act, s'⟩]) = chainSteps ts ++ [⟨s.world, act, s'.world⟩] := by
  simp [chainSteps]

theorem chainSteps_own {event : EnumeratorEvent} (h : ∀ act, event ≠ .chain act)
    (ts : List EnumeratorTransition) (s s' : Enumerator) :
    chainSteps (ts ++ [⟨s, event, s'⟩]) = chainSteps ts := by
  cases event with
  | chain act => exact absurd rfl (h act)
  | _ => simp [chainSteps]

/-- A history of the enumerator contains one of the chain. -/
theorem run_chain {env : Env} {configPda : Pubkey} {s₀ s : Enumerator}
    {ts : List EnumeratorTransition} (hr : EnumeratorRun env configPda s₀ ts s) :
    RelayerRun env s₀.world (chainSteps ts) s.world := by
  induction hr with
  | nil => exact .nil _
  | snoc hr hstep ih =>
      cases hstep.effect with
      | chain hact =>
          rw [chainSteps_chain]
          exact .snoc ih hact
      | started _ | returned _ | read _ | finished _ _ =>
          rw [chainSteps_own (fun _ => EnumeratorEvent.noConfusion)]
          exact ih

end FogoYield.Cranker
