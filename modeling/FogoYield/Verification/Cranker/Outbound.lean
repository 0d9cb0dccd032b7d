import FogoYield.Library.Interleaving
import FogoYield.Model.Cranker.Outbound
import FogoYield.Verification.Cranker.ReferenceScan
import FogoYield.Verification.Relayer.Reference
import FogoYield.Verification.Sdk.Client

/-! # What the drivers submit, when it arrives

A driver builds its transaction from a config and a flow it has read. Other instructions run before
it arrives, and the transfers in front of its own: the transaction then pays out just what is still
open, or is refused. -/

namespace FogoYield.Cranker

open FogoYield.Library FogoYield.Solana FogoYield.Sdk
open FogoYield.Relayer (RelayerRuntime RelayerWorld RelayerTransition RelayerRun Direction
  PairConfig Flow Env Genesis flowAt pairConfigAt inOut SameStatics SameFlow swapCount run_effects
  run_pair_kept alive_run referenceEnv pairConfigKey usdcMint inboxItemKey flowKey
  nttUsdcProgram bootstrapAction initializeAction receiveAction swapAction)

/-! ## What a driver submits -/

theorem orError_eq_ok {α : Type} {o : Option α} {x : α} : orError o = .ok x ↔ o = some x := by
  cases o <;> simp [orError]

theorem toOption_eq_some {ε α : Type} {x : Except ε α} {a : α} :
    x.toOption = some a ↔ x = .ok a := by
  cases x <;> simp [Except.toOption]

theorem noopUnless_eq_ok {c : Prop} [Decidable c] {config : Bool} {reason : OutboundNoop}
    {u : Unit} : noopUnless c config reason = .ok u ↔ c := by
  by_cases h : c <;> simp [noopUnless, h]

section

variable {rt : RelayerRuntime} {client : RelayerClient} {ctx : AdvanceContext}
variable {reads : OutboundReads} {direction : Direction} {outboxItem : Pubkey} {tx : OutboundTx}
variable {expected : Relayer.FlowStatus}
variable {build : OutboundParams → Except NttBuildError OutboundIx}

/-- A transaction built from the config and the flow that were read. -/
structure Submitted (rt : RelayerRuntime) (client : RelayerClient) (reads : OutboundReads)
    (build : OutboundParams → Except NttBuildError OutboundIx) (expected : Relayer.FlowStatus)
    (tx : OutboundTx) (cfg : PairConfig) (f : Flow) (params : OutboundParams) : Prop where
  config : reads.config = some cfg
  flow : reads.flow (client.flowPda rt params.direction params.nttInboxItem) = some f
  status : f.status = expected
  pays : params.Pays f
  of_pair : params.OfPair cfg
  built : build params = .ok tx.ix
  signers : tx.signers = [params.payer, params.outboxItem]

theorem fetchFlowOf_spec {manager item : Pubkey} {f : Flow}
    (h : fetchFlowOf rt client reads direction manager expected = .ok (item, f)) :
    reads.flow (client.flowPda rt direction item) = some f ∧ f.status = expected := by
  simp only [fetchFlowOf, bind_ok_iff] at h
  obtain ⟨vaaBytes, -, resolved, -, h⟩ := h
  cases hf : reads.flow (client.flowPda rt direction resolved.nttInboxItem) with
  | none => simp [hf] at h
  | some flow =>
      simp only [hf, bind_ok_iff, noopUnless_eq_ok, exists_const, pure, Except.pure,
        Except.ok.injEq, Prod.mk.injEq] at h
      obtain ⟨hstatus, rfl, rfl⟩ := h
      exact ⟨hf, hstatus⟩

theorem submitOutbound_spec {config : Bool} {manager mint item : Pubkey} {cfg : PairConfig}
    {f : Flow} (h : submitOutbound rt ctx reads direction outboxItem config manager mint cfg item f
      build = .ok tx) :
    ∃ params : OutboundParams, params.direction = direction ∧ params.nttInboxItem = item ∧
      params.Pays f ∧ params.OfPair cfg ∧ build params = .ok tx.ix ∧
      tx.signers = [params.payer, params.outboxItem] := by
  simp only [submitOutbound, bind_ok_iff, noopUnless_eq_ok, exists_const, orError_eq_ok,
    toOption_eq_some] at h
  obtain ⟨-, -, hash, hhash, release, -, ix, hix, h⟩ := h
  have hlength := recipient_length_of_hash hhash
  cases htable : ctx.sendLookupTable with
  | none => simp [htable] at h
  | some key =>
      simp only [htable, bind_ok_iff] at h
      obtain ⟨found, -, h⟩ := h
      split at h
      · obtain rfl := Except.ok.inj h
        exact ⟨_, rfl, rfl, ⟨rfl, rfl, hlength, rfl⟩, ⟨rfl, rfl, rfl, rfl⟩, hix, rfl⟩
      · cases h

theorem driveSend_spec (h : driveSend rt client ctx reads direction outboxItem = .ok tx) :
    ∃ cfg f params, Submitted rt client reads (client.send rt) .swapped tx cfg f params := by
  simp only [driveSend, bind_ok_iff, noopUnless_eq_ok, exists_const, orError_eq_ok] at h
  obtain ⟨cfg, hcfg, -, ⟨item, f⟩, hfetch, hsubmit⟩ := h
  obtain ⟨hf, hstatus⟩ := fetchFlowOf_spec hfetch
  obtain ⟨params, rfl, rfl, hpays, hpair, hbuilt, hsigners⟩ := submitOutbound_spec hsubmit
  exact ⟨cfg, f, params, hcfg, hf, hstatus, hpays, hpair, hbuilt, hsigners⟩

/-- A refund is submitted when the slot that was read is past the timeout. -/
theorem driveRefund_spec (h : driveRefund rt client ctx reads direction outboxItem = .ok tx) :
    ∃ cfg f params slot, Submitted rt client reads (client.refund rt) .received tx cfg f params ∧
      reads.slot = some slot ∧ refundDue f.receivedSlot slot = true := by
  simp only [driveRefund, bind_ok_iff, noopUnless_eq_ok, exists_const, orError_eq_ok] at h
  obtain ⟨cfg, hcfg, ⟨item, f⟩, hfetch, slot, hslot, hdue, -, hsubmit⟩ := h
  obtain ⟨hf, hstatus⟩ := fetchFlowOf_spec hfetch
  obtain ⟨params, rfl, rfl, hpays, hpair, hbuilt, hsigners⟩ := submitOutbound_spec hsubmit
  exact ⟨cfg, f, params, slot, ⟨hcfg, hf, hstatus, hpays, hpair, hbuilt, hsigners⟩, hslot, hdue⟩

end

/-! ## When one is submitted -/

section

variable {rt : RelayerRuntime} {client : RelayerClient} {ctx : AdvanceContext}
variable {reads : OutboundReads} {direction : Direction} {outboxItem manager mint item : Pubkey}
variable {cfg : PairConfig} {f : Flow} {build : OutboundParams → Except NttBuildError OutboundIx}

theorem fetchFlowOf_ok {vaaBytes : Bytes} (hvaa : reads.vaaBytes = some vaaBytes)
    (hresolves : (resolveNttVaa rt vaaBytes manager none).toOption.map ResolvedNttVaa.nttInboxItem =
      some item) (hf : reads.flow (client.flowPda rt direction item) = some f) :
    fetchFlowOf rt client reads direction manager f.status = .ok (item, f) := by
  obtain ⟨resolved, hresolved, rfl⟩ := Option.map_eq_some_iff.mp hresolves
  simp [fetchFlowOf, hvaa, hresolved, hf, orError, noopUnless, bind, Except.bind, pure, Except.pure]

theorem nttTransferArgsHash_ok (rt : RelayerRuntime) (args : NttTransferArgs)
    (h : args.recipientAddress.length = 32) :
    ∃ hash, nttTransferArgsHash rt args = .ok hash := by
  simp [nttTransferArgsHash, serializeTransferArgs, h, bind, Except.bind, pure, Except.pure]

/-- With NTT set up, a lookup table and a recipient of 32 bytes, the instruction is submitted if it
can be built. -/
theorem submitOutbound_ok {config : Bool} {release : ReleaseAccounts} {key : Pubkey}
    (hpeer : reads.lamports (findNttPeerPda rt fogoWormholeChainId manager) ≠ none)
    (htransceiver : reads.lamports (findRegisteredTransceiverPda rt manager manager) ≠ none)
    (hlength : f.recipient.bytes.length = 32)
    (hrelease : reads.release mint manager outboxItem = some release)
    (hkey : ctx.sendLookupTable = some key) (hfound : reads.lookupTable key = some true)
    (hbuild : ∀ params : OutboundParams, params.Pays f → ∃ ix, build params = .ok ix) :
    ∃ tx, submitOutbound rt ctx reads direction outboxItem config manager mint cfg item f build =
      .ok tx := by
  obtain ⟨hash, hhash⟩ := nttTransferArgsHash_ok rt
    ⟨f.amount.toNat, fogoWormholeChainId, f.recipient.bytes, false⟩ hlength
  obtain ⟨ix, hix⟩ := hbuild ⟨ctx.keypair, direction, cfg.baseMint, cfg.assetMint, item, f.payer,
    f.amount.toNat, f.recipient.bytes, outboxItem, some cfg.nttBaseProgram,
    some cfg.nttAssetProgram, release⟩ ⟨rfl, rfl, hlength, rfl⟩
  simp only [submitOutbound, bind_ok_iff, noopUnless_eq_ok, exists_const, orError_eq_ok,
    toOption_eq_some, hkey]
  exact ⟨_, hpeer, htransceiver, hash, hhash, release, hrelease, ix, hix, true, hfound, rfl⟩

/-- The client builds every payout of a flow. -/
theorem client_send_builds {params : OutboundParams} (h : params.Pays f) :
    ∃ ix, client.send rt params = .ok ix := by
  cases hd : params.direction with
  | deposit =>
      simp only [RelayerClient.send, hd]
      exact ⟨_, OutboundParams.build_eq h _ _⟩
  | withdraw =>
      simp only [RelayerClient.send, hd]
      exact ⟨_, OutboundParams.build_eq h _ _⟩

theorem client_refund_builds {params : OutboundParams} (h : params.Pays f) :
    ∃ ix, client.refund rt params = .ok ix := by
  cases hd : params.direction with
  | deposit =>
      simp only [RelayerClient.refund, hd]
      exact ⟨_, OutboundParams.build_eq h _ _⟩
  | withdraw =>
      simp only [RelayerClient.refund, hd]
      exact ⟨_, OutboundParams.build_eq h _ _⟩

end

/-! ## What becomes of a flow that was read -/

section

variable {env : Env} {w w' : RelayerWorld} {vs : List RelayerTransition} {k : Pubkey} {f : Flow}

/-- A swapped flow that nothing closes stays as it is. -/
theorem swapped_kept (hl : env.Lawful) (hp : Relayer.Pinned env w)
    (hf : flowAt w.accounts k = some f) (hs : f.status = .swapped) (hr : RelayerRun env w vs w')
    (hopen : ∀ tr ∈ vs, tr.act.closes k = false) : flowAt w'.accounts k = some f := by
  induction hr with
  | nil => exact hf
  | snoc hr hstep ih =>
      have hfw := ih (fun tr htr => hopen tr (List.mem_append_left _ htr))
      have hlast := hopen _ (List.mem_append_right _ (List.mem_singleton_self _))
      cases (hstep.effect hl (run_effects hl hp hr).1).flowStep k with
      | kept _ heq => exact heq.trans hfw
      | received _ _ hnone _ => simp [hnone] at hfw
      | swapped _ hswap hbefore _ =>
          obtain rfl := Option.some.inj (hbefore.symm.trans hfw)
          rw [hswap.status] at hs
          cases hs
      | sent hk _ _ _ _ => simp [Relayer.Action.closes, Relayer.Action.sends, hk] at hlast
      | refunded hk _ _ _ _ _ => simp [Relayer.Action.closes, Relayer.Action.refunds, hk] at hlast

/-- A received flow that nothing closes is still received and whole, or swapped. -/
theorem received_kept (hl : env.Lawful) (hp : Relayer.Pinned env w)
    (hf : flowAt w.accounts k = some f) (hs : f.status = .received) (hr : RelayerRun env w vs w')
    (hopen : ∀ tr ∈ vs, tr.act.closes k = false) :
    swapCount k vs = 0 ∧ flowAt w'.accounts k = some f ∨
      0 < swapCount k vs ∧ ∃ f', flowAt w'.accounts k = some f' ∧ SameFlow f f' ∧
        f'.status = .swapped := by
  obtain ⟨f', hf', ha⟩ := alive_run hl hp hf hs hr hopen
  rcases ha.phase with ⟨hs', hamount, hcount⟩ | ⟨hs', hcount⟩
  · left
    have hsame : f' = f := by
      obtain ⟨h₁, h₂, h₃, h₄, h₅, h₆⟩ := ha.same
      cases f
      cases f'
      simp_all
    exact ⟨hcount, by rw [hf', hsame]⟩
  · right
    exact ⟨by omega, f', hf', ha.same, hs'⟩

/-- A flow that is gone stays gone until it is received again. -/
theorem gone_kept (hl : env.Lawful) (hp : Relayer.Pinned env w) (hf : flowAt w.accounts k = none)
    (hr : RelayerRun env w vs w') (hunopened : ∀ tr ∈ vs, tr.act.opens k = false) :
    flowAt w'.accounts k = none := by
  induction hr with
  | nil => exact hf
  | snoc hr hstep ih =>
      have hfw := ih (fun tr htr => hunopened tr (List.mem_append_left _ htr))
      have hlast := hunopened _ (List.mem_append_right _ (List.mem_singleton_self _))
      cases (hstep.effect hl (run_effects hl hp hr).1).flowStep k with
      | kept _ heq => exact heq.trans hfw
      | received hk _ _ _ => simp [Relayer.Action.opens, hk] at hlast
      | swapped _ _ hbefore _ => simp [hbefore] at hfw
      | sent _ _ _ _ hnone => exact hnone
      | refunded _ _ _ _ _ hnone => exact hnone

theorem closed_gone (hl : env.Lawful) (hp : Relayer.Pinned env w) (hr : RelayerRun env w vs w')
    (hunopened : ∀ tr ∈ vs, tr.act.opens k = false) (hclosed : ∃ tr ∈ vs, tr.act.closes k = true) :
    flowAt w'.accounts k = none := by
  obtain ⟨⟨v, act, v'⟩, htr, hcloses⟩ := hclosed
  obtain ⟨before, after, rfl⟩ := List.append_of_mem htr
  obtain ⟨hbefore, hstep, hafter⟩ := hr.split
  have hpre := (run_effects hl hp hbefore).1
  have he := hstep.effect hl hpre
  have hnone : flowAt v'.accounts k = none := by
    cases he.flowStep k with
    | kept hkey _ =>
        obtain ⟨-, hsends, hrefunds, -⟩ := Relayer.Action.not_flowKey hkey
        simp [Relayer.Action.closes, hsends, hrefunds] at hcloses
    | received | swapped =>
        simp [Relayer.Action.closes, Relayer.Action.sends, Relayer.Action.refunds] at hcloses
    | sent _ _ _ _ hnone => exact hnone
    | refunded _ _ _ _ _ hnone => exact hnone
  exact gone_kept hl (he.pinned hpre) hnone hafter (fun u hu => hunopened u (by simp [hu]))

end

/-! ## At the program -/

theorem sendNttProgram_of_statics {c c' : PairConfig} (h : SameStatics c c') (d : Direction) :
    c'.sendNttProgram d = c.sendNttProgram d := by
  cases d
  · exact h.nttAssetProgram
  · exact h.nttBaseProgram

theorem ofPair_of_statics {params : OutboundParams} {c c' : PairConfig} (h : params.OfPair c)
    (hs : SameStatics c c') : params.OfPair c' where
  base_mint := h.base_mint.trans hs.baseMint.symm
  asset_mint := h.asset_mint.trans hs.assetMint.symm
  base_manager := h.base_manager.trans (congrArg some hs.nttBaseProgram.symm)
  asset_manager := h.asset_manager.trans (congrArg some hs.nttAssetProgram.symm)

/-- The config a driver read at `w₁` and the flows it read at `w₂` are the chain's, and no slot it
read is ahead of the state `w` its transaction arrives at. -/
structure ReadAlong (rt : RelayerRuntime) (client : RelayerClient) (reads : OutboundReads)
    (w₁ w₂ w : RelayerWorld) : Prop where
  config : ∀ c, reads.config = some c → pairConfigAt w₁.accounts (client.configPda rt) = some c
  flow : ∀ k f, reads.flow k = some f → flowAt w₂.accounts k = some f
  slot : ∀ s, reads.slot = some s → s ≤ w.clock.slot

section

variable {env : Env} {w₀ w₁ w₂ w : RelayerWorld} {ts us vs : List RelayerTransition}
variable {client : RelayerClient} {reads : OutboundReads} {tx : OutboundTx} {cfg : PairConfig}
variable {f f' : Flow} {params : OutboundParams} {expected : Relayer.FlowStatus}
variable {build : OutboundParams → Except NttBuildError OutboundIx}
variable {pair item tp : Pubkey} {c : PairConfig} {i : Relayer.InboxItem} {t : TokenAccount}

/-- What the program finds at a submission of a flow that is still open, as `f'` by then. -/
structure Arrived (env : Env) (client : RelayerClient) (params : OutboundParams)
    (cfg : PairConfig) (f' : Flow) (w : RelayerWorld) (pair item tp : Pubkey) (c : PairConfig)
    (i : Relayer.InboxItem) (t : TokenAccount) : Prop where
  ready : Relayer.ExitReady env w (client.flowPda env.runtime params.direction params.nttInboxItem)
    f' pair item tp c i t
  of_pair : params.OfPair c
  statics : SameStatics cfg c
  classic : (w.accounts c.baseMint).owner = tokenProgram

theorem arrived (hl : env.Lawful) (hg : Genesis env w₀) (hr₁ : RelayerRun env w₀ ts w₁)
    (hr₂ : RelayerRun env w₁ us w₂) (hr : RelayerRun env w₂ vs w)
    (hreads : ReadAlong env.runtime client reads w₁ w₂ w)
    (hclassic : ∀ c, pairConfigAt w.accounts (client.configPda env.runtime) = some c →
      (w.accounts c.baseMint).owner = tokenProgram)
    (h : Submitted env.runtime client reads build expected tx cfg f params)
    (hf : flowAt w.accounts (client.flowPda env.runtime params.direction params.nttInboxItem) =
      some f') : ∃ pair item tp c i t, Arrived env client params cfg f' w pair item tp c i t := by
  obtain ⟨pair, item, tp, c, i, t, hready⟩ :=
    Relayer.exitReady hl hg ((hr₁.append hr₂).append hr) hf
  obtain ⟨-, hpair, -⟩ := bound_of_flowPda hl hready.bound rfl
  have hc := hready.bound.config_at
  rw [← hpair] at hc
  have hpin := (run_effects hl hg.pinned hr₁).1
  obtain ⟨c', hc', hstatics⟩ := run_pair_kept hl hpin (hr₂.append hr) (hreads.config _ h.config)
  obtain rfl := Option.some.inj (hc'.symm.trans hc)
  exact ⟨pair, item, tp, c', i, t, hready, ofPair_of_statics h.of_pair hstatics, hstatics,
    hclassic _ hc⟩

theorem accounts_of_send
    (h : Submitted env.runtime client reads (client.send env.runtime) expected tx cfg f params) :
    tx.ix.accounts = params.accounts env.runtime client :=
  accounts_of_build h.pays ((send_eq_build env.runtime h.of_pair).symm.trans h.built)

theorem accounts_of_refund
    (h : Submitted env.runtime client reads (client.refund env.runtime) expected tx cfg f params) :
    tx.ix.accounts = params.accounts env.runtime client :=
  accounts_of_build h.pays ((refund_eq_build env.runtime h.of_pair).symm.trans h.built)

/-- A `send` of a flow that is as it was read goes through if and only if NTT pays it out. -/
theorem send_iff_pays (hl : env.Lawful)
    (h : Submitted env.runtime client reads (client.send env.runtime) .swapped tx cfg f params)
    (ha : Arrived env client params cfg f w pair item tp c i t) :
    (∃ w', tx.send env.runtime w = .ok w') ↔ NttPays env.runtime tx.ix f
      (cfg.sendNttProgram f.direction) (inOut f.direction cfg.baseMint cfg.assetMint).2 w := by
  rw [OutboundTx.send, h.signers, ← sendNttProgram_of_statics ha.statics,
    ← ha.statics.baseMint, ← ha.statics.assetMint]
  exact client_send_ok_iff hl h.pays ha.of_pair ha.ready rfl ha.classic h.status h.built

/-- A `refund` of a flow that is as it was read goes through if and only if NTT gives it back. The
slot only grows, so that the timeout has passed for the program too. -/
theorem refund_iff_pays (hl : env.Lawful)
    (h : Submitted env.runtime client reads (client.refund env.runtime) .received tx cfg f params)
    (ha : Arrived env client params cfg f w pair item tp c i t) {slot : UInt64}
    (hdue : refundDue f.receivedSlot slot = true) (hslot : slot ≤ w.clock.slot) :
    (∃ w', tx.refund env.runtime w = .ok w') ↔ NttPays env.runtime tx.ix f
      (cfg.receiveNttProgram f.direction) (inOut f.direction cfg.baseMint cfg.assetMint).1 w := by
  have hready := Nat.le_trans (of_decide_eq_true hdue) (UInt64.le_iff_toNat_le.mp hslot)
  rw [← refundTimeoutSlots_mirrors] at hready
  rw [OutboundTx.refund, h.signers, ← ha.statics.receiveNttProgram, ← ha.statics.baseMint,
    ← ha.statics.assetMint]
  exact client_refund_ok_iff hl h.pays ha.of_pair ha.ready rfl ha.classic h.status hready h.built

/-- A `refund` that a swap came before is refused for the status of the flow. -/
theorem refund_of_swapped (hl : env.Lawful)
    (h : Submitted env.runtime client reads (client.refund env.runtime) expected tx cfg f params)
    (ha : Arrived env client params cfg f' w pair item tp c i t) (hsame : SameFlow f f')
    (hs : f'.status = .swapped) :
    tx.refund env.runtime w = .error (.custom .flowStatusMismatch) := by
  obtain ⟨m, hm⟩ := client_load hl ha.ready rfl ha.of_pair.base_mint ha.of_pair.asset_mint
    ha.classic
  have hrent : params.rentDestination = f'.payer := h.pays.rent.trans hsame.payer.symm
  rw [OutboundTx.refund, h.signers, accounts_of_refund h, Relayer.refund,
    load_of_built hrent hm tx.ix.remaining]
  simp [require, hs, bind, Except.bind]

/-- A flow that is gone has nothing left to pay out: the instruction is refused. -/
theorem refused_of_gone (haccs : tx.ix.accounts = params.accounts env.runtime client)
    (hgone : flowAt w.accounts (client.flowPda env.runtime params.direction params.nttInboxItem) =
      none) (w' : RelayerWorld) :
    tx.send env.runtime w ≠ .ok w' ∧ tx.refund env.runtime w ≠ .ok w' := by
  have hload : ∀ ctx loaded, tx.ix.accounts.load env.runtime ctx w ≠ .ok loaded := by
    intro ctx loaded h
    simp only [Relayer.OutboundAccounts.load, bind_eq_ok, Relayer.flowAccounts_load_eq_ok] at h
    obtain ⟨-, -, l, hl, -⟩ := h
    have hflow := hl.flow_at
    rw [haccs] at hflow
    exact absurd (hflow.symm.trans hgone) (by simp)
  constructor
  · intro h
    simp only [OutboundTx.send, Relayer.send, bind_eq_ok] at h
    obtain ⟨loaded, hl, -⟩ := h
    exact hload _ _ hl
  · intro h
    simp only [OutboundTx.refund, Relayer.refund, bind_eq_ok] at h
    obtain ⟨loaded, hl, -⟩ := h
    exact hload _ _ hl

end

section

variable {env : Env} {w₀ w₁ w₂ w : RelayerWorld} {ts us vs : List RelayerTransition}
variable {client : RelayerClient} {ctx : AdvanceContext} {reads : OutboundReads} {tx : OutboundTx}
variable {direction : Direction} {outboxItem : Pubkey} {cfg : PairConfig} {f : Flow}
variable {params : OutboundParams}

/-! ## The transfers in front -/

/-- The transfers of a transaction are steps of the chain that no flow is the subject of. -/
theorem fund_run {wf : RelayerWorld} (h : tx.fund env.runtime w = .ok wf) :
    ∃ fs, RelayerRun env w fs wf ∧
      ∀ tr ∈ fs, ∀ k, tr.act.closes k = false ∧ tr.act.swaps k = false := by
  have hstep : ∀ act ∈ tx.fundIxs.map Relayer.Action.external, ∀ u v,
      act.apply env.runtime u = .ok v → Relayer.Step env u act v := by
    intro act hact u v happly
    obtain ⟨ix, -, rfl⟩ := List.mem_map.mp hact
    exact ⟨trivial, happly⟩
  obtain ⟨fs, hfs, hacts⟩ := run_of_execute hstep h
  refine ⟨fs, hfs, fun tr htr k => ?_⟩
  obtain ⟨ix, -, hact⟩ := List.mem_map.mp (hacts ▸ List.mem_map_of_mem htr)
  rw [← hact]
  exact ⟨rfl, rfl⟩

theorem run_slot_le {w' : RelayerWorld} (hl : env.Lawful) (hp : Relayer.Pinned env w)
    (hr : RelayerRun env w vs w') : w.clock.slot ≤ w'.clock.slot := by
  induction hr with
  | nil => exact UInt64.le_refl _
  | snoc hr hstep ih =>
      exact UInt64.le_trans ih (hstep.effect hl (run_effects hl hp hr).1).slot_le

theorem ReadAlong.later {rt : RelayerRuntime} {w' : RelayerWorld}
    (h : ReadAlong rt client reads w₁ w₂ w) (hslot : w.clock.slot ≤ w'.clock.slot) :
    ReadAlong rt client reads w₁ w₂ w' where
  config := h.config
  flow := h.flow
  slot s hs := UInt64.le_trans (h.slot s hs) hslot

/-! ## While the flow stays open -/

section

variable (hl : env.Lawful) (hg : Genesis env w₀) (hr₁ : RelayerRun env w₀ ts w₁)
variable (hr₂ : RelayerRun env w₁ us w₂) (hr : RelayerRun env w₂ vs w)
variable (hreads : ReadAlong env.runtime client reads w₁ w₂ w)

include hl hg hr₁ hr₂ hr hreads

section

variable (hclassic : ∀ c, pairConfigAt w.accounts (client.configPda env.runtime) = some c →
  (w.accounts c.baseMint).owner = tokenProgram)

include hclassic

theorem Submitted.send_iff
    (h : Submitted env.runtime client reads (client.send env.runtime) .swapped tx cfg f params)
    (hopen : ∀ tr ∈ vs, tr.act.closes tx.ix.accounts.flow = false) :
    (∃ w', tx.send env.runtime w = .ok w') ↔ NttPays env.runtime tx.ix f
      (cfg.sendNttProgram f.direction) (inOut f.direction cfg.baseMint cfg.assetMint).2 w := by
  rw [accounts_of_send h] at hopen
  have hpin := (run_effects hl hg.pinned (hr₁.append hr₂)).1
  have hf := swapped_kept hl hpin (hreads.flow _ _ h.flow) h.status hr hopen
  obtain ⟨pair, item, tp, c, i, t, ha⟩ := arrived hl hg hr₁ hr₂ hr hreads hclassic h hf
  exact send_iff_pays hl h ha

theorem Submitted.refund_iff {slot : UInt64}
    (h : Submitted env.runtime client reads (client.refund env.runtime) .received tx cfg f params)
    (hslot : reads.slot = some slot) (hdue : refundDue f.receivedSlot slot = true)
    (hopen : ∀ tr ∈ vs, tr.act.closes tx.ix.accounts.flow = false)
    (hunswapped : swapCount tx.ix.accounts.flow vs = 0) :
    (∃ w', tx.refund env.runtime w = .ok w') ↔ NttPays env.runtime tx.ix f
      (cfg.receiveNttProgram f.direction) (inOut f.direction cfg.baseMint cfg.assetMint).1 w := by
  rw [accounts_of_refund h] at hopen hunswapped
  have hpin := (run_effects hl hg.pinned (hr₁.append hr₂)).1
  rcases received_kept hl hpin (hreads.flow _ _ h.flow) h.status hr hopen with
    ⟨-, hf⟩ | ⟨hswapped, -⟩
  · obtain ⟨pair, item, tp, c, i, t, ha⟩ := arrived hl hg hr₁ hr₂ hr hreads hclassic h hf
    exact refund_iff_pays hl h ha hdue (hreads.slot _ hslot)
  · exact absurd hunswapped hswapped.ne'

theorem Submitted.refund_swapped
    (h : Submitted env.runtime client reads (client.refund env.runtime) .received tx cfg f params)
    (hopen : ∀ tr ∈ vs, tr.act.closes tx.ix.accounts.flow = false)
    (hswapped : 0 < swapCount tx.ix.accounts.flow vs) :
    tx.refund env.runtime w = .error (.custom .flowStatusMismatch) := by
  rw [accounts_of_refund h] at hopen hswapped
  have hpin := (run_effects hl hg.pinned (hr₁.append hr₂)).1
  rcases received_kept hl hpin (hreads.flow _ _ h.flow) h.status hr hopen with
    ⟨hzero, -⟩ | ⟨-, f', hf, hsame, hstatus⟩
  · exact absurd hzero hswapped.ne'
  · obtain ⟨pair, item, tp, c, i, t, ha⟩ := arrived hl hg hr₁ hr₂ hr hreads hclassic h hf
    exact refund_of_swapped hl h ha hsame hstatus

end

section

variable (hclassic : ∀ wf, tx.fund env.runtime w = .ok wf →
  ∀ c, pairConfigAt wf.accounts (client.configPda env.runtime) = some c →
    (wf.accounts c.baseMint).owner = tokenProgram)

include hclassic

/-- A whole `send` transaction of a flow that stays open goes through if and only if its transfers
do and NTT pays out behind them. -/
theorem send_transaction
    (hdrive : driveSend env.runtime client ctx reads direction outboxItem = .ok tx)
    (hopen : ∀ tr ∈ vs, tr.act.closes tx.ix.accounts.flow = false) :
    ∃ cfg f, reads.config = some cfg ∧ reads.flow tx.ix.accounts.flow = some f ∧
      ((∃ w', tx.submitSend env.runtime w = .ok w') ↔ ∃ wf, tx.fund env.runtime w = .ok wf ∧
        NttPays env.runtime tx.ix f (cfg.sendNttProgram f.direction)
          (inOut f.direction cfg.baseMint cfg.assetMint).2 wf) := by
  obtain ⟨cfg, f, params, h⟩ := driveSend_spec hdrive
  have hpin := (run_effects hl hg.pinned ((hr₁.append hr₂).append hr)).1
  have hfunded : ∀ wf, tx.fund env.runtime w = .ok wf →
      ((∃ w', tx.send env.runtime wf = .ok w') ↔ NttPays env.runtime tx.ix f
        (cfg.sendNttProgram f.direction) (inOut f.direction cfg.baseMint cfg.assetMint).2 wf) := by
    intro wf hfund
    obtain ⟨fs, hfs, hquiet⟩ := fund_run hfund
    refine h.send_iff hl hg hr₁ hr₂ (hr.append hfs) (hreads.later (run_slot_le hl hpin hfs))
      (hclassic wf hfund) ?_
    exact List.forall_mem_append.mpr ⟨hopen, fun tr htr => (hquiet tr htr _).1⟩
  refine ⟨cfg, f, h.config, accounts_of_send h ▸ h.flow, ?_⟩
  exact exists_bind_ok_iff hfunded

/-- A whole `refund` transaction of a flow that stays as it is, likewise. -/
theorem refund_transaction
    (hdrive : driveRefund env.runtime client ctx reads direction outboxItem = .ok tx)
    (hopen : ∀ tr ∈ vs, tr.act.closes tx.ix.accounts.flow = false)
    (hunswapped : swapCount tx.ix.accounts.flow vs = 0) :
    ∃ cfg f, reads.config = some cfg ∧ reads.flow tx.ix.accounts.flow = some f ∧
      ((∃ w', tx.submitRefund env.runtime w = .ok w') ↔ ∃ wf, tx.fund env.runtime w = .ok wf ∧
        NttPays env.runtime tx.ix f (cfg.receiveNttProgram f.direction)
          (inOut f.direction cfg.baseMint cfg.assetMint).1 wf) := by
  obtain ⟨cfg, f, params, slot, h, hslot, hdue⟩ := driveRefund_spec hdrive
  have hpin := (run_effects hl hg.pinned ((hr₁.append hr₂).append hr)).1
  have hfunded : ∀ wf, tx.fund env.runtime w = .ok wf →
      ((∃ w', tx.refund env.runtime wf = .ok w') ↔ NttPays env.runtime tx.ix f
        (cfg.receiveNttProgram f.direction) (inOut f.direction cfg.baseMint cfg.assetMint).1
        wf) := by
    intro wf hfund
    obtain ⟨fs, hfs, hquiet⟩ := fund_run hfund
    refine h.refund_iff hl hg hr₁ hr₂ (hr.append hfs) (hreads.later (run_slot_le hl hpin hfs))
      (hclassic wf hfund) hslot hdue ?_ ?_
    · exact List.forall_mem_append.mpr ⟨hopen, fun tr htr => (hquiet tr htr _).1⟩
    · have hzero : swapCount tx.ix.accounts.flow fs = 0 :=
        List.countP_eq_zero.mpr fun tr htr => by simp [(hquiet tr htr _).2]
      rw [swapCount, List.countP_append]
      exact Nat.add_eq_zero_iff.mpr ⟨hunswapped, hzero⟩
  refine ⟨cfg, f, h.config, accounts_of_refund h ▸ h.flow, ?_⟩
  exact exists_bind_ok_iff hfunded

end

end

end

/-! ## On the reference chain -/

/-- The client of the reference pair. -/
def referenceClient : RelayerClient := ⟨usdcMint, Relayer.onycMint⟩

def sendLookupTable : Pubkey := ⟨List.replicate 32 13⟩

/-- What a driver of the reference deposit reads: the config at `w₁` and the rest at `w₂`. -/
def depositOutboundReads (w₁ w₂ : RelayerWorld) : OutboundReads where
  config := pairConfigAt w₁.accounts pairConfigKey
  vaaBytes := some depositVaa.vaa
  flow := fun key => if key = flowKey then flowAt w₂.accounts flowKey else none
  slot := some w₂.clock.slot
  lamports := fun _ => some 1000000
  release := fun _ _ outboxItem =>
    some ⟨systemProgram, systemProgram, systemProgram, systemProgram, outboxItem, none, none⟩
  lookupTable := fun _ => some true

def driveDepositSend (w₁ w₂ : RelayerWorld) : Except OutboundStop OutboundTx :=
  driveSend referenceEnv.runtime referenceClient ⟨Relayer.cranker, some sendLookupTable⟩
    (depositOutboundReads w₁ w₂) .deposit Relayer.outboxItem

def driveDepositRefund (w₁ w₂ : RelayerWorld) : Except OutboundStop OutboundTx :=
  driveRefund referenceEnv.runtime referenceClient ⟨Relayer.cranker, some sendLookupTable⟩
    (depositOutboundReads w₁ w₂) .deposit Relayer.outboxItem

/-- The pair is there, with a base mint of the classic token program. -/
def depositPair (w : RelayerWorld) : Prop :=
  ((pairConfigAt w.accounts pairConfigKey).any fun c =>
    c.nttBaseProgram = nttUsdcProgram ∧ c.nttAssetProgram ≠ c.nttBaseProgram ∧
      (w.accounts c.baseMint).owner = tokenProgram) = true

def depositSwapped (w : RelayerWorld) : Prop :=
  ((flowAt w.accounts flowKey).any fun f =>
    f.status = .swapped ∧ f.recipient.bytes.length = 32) = true

/-- The deposit is received, and past the timeout. -/
def depositStalled (w : RelayerWorld) : Prop :=
  ((flowAt w.accounts flowKey).any fun f =>
    f.status = .received ∧ f.recipient.bytes.length = 32 ∧
      refundDue f.receivedSlot w.clock.slot = true) = true

instance : DecidablePred depositPair := fun _ => inferInstanceAs (Decidable (_ = _))
instance : DecidablePred depositSwapped := fun _ => inferInstanceAs (Decidable (_ = _))
instance : DecidablePred depositStalled := fun _ => inferInstanceAs (Decidable (_ = _))

theorem referenceClient_config :
    referenceClient.configPda referenceEnv.runtime = pairConfigKey := by decide +kernel

theorem referenceClient_flow :
    referenceClient.flowPda referenceEnv.runtime .deposit inboxItemKey = flowKey := by
  decide +kernel

section

variable {w₁ w₂ : RelayerWorld}

theorem fetchFlowOf_deposit {f : Flow} {manager : Pubkey} (hmanager : manager = nttUsdcProgram)
    (hf : flowAt w₂.accounts flowKey = some f) :
    fetchFlowOf referenceEnv.runtime referenceClient (depositOutboundReads w₁ w₂) .deposit manager
      f.status = .ok (inboxItemKey, f) := by
  subst hmanager
  refine fetchFlowOf_ok rfl depositVaa_resolves ?_
  rw [referenceClient_flow]
  change (if flowKey = flowKey then flowAt w₂.accounts flowKey else none) = some f
  rw [if_pos rfl, hf]

theorem driveDepositSend_ok (hpair : depositPair w₁) (hflow : depositSwapped w₂) :
    ∃ tx, driveDepositSend w₁ w₂ = .ok tx := by
  obtain ⟨c, hc, hpair⟩ := (Option.any_eq_true _ _).mp hpair
  obtain ⟨f, hf, hflow⟩ := (Option.any_eq_true _ _).mp hflow
  obtain ⟨hbase, hmanagers, -⟩ := of_decide_eq_true hpair
  obtain ⟨hstatus, hlength⟩ := of_decide_eq_true hflow
  have hfetch := @fetchFlowOf_deposit w₁ w₂ f _ hbase hf
  rw [hstatus] at hfetch
  obtain ⟨tx, htx⟩ : ∃ tx, submitOutbound referenceEnv.runtime
      ⟨Relayer.cranker, some sendLookupTable⟩ (depositOutboundReads w₁ w₂) .deposit
      Relayer.outboxItem true c.nttAssetProgram c.assetMint c inboxItemKey f
      (referenceClient.send referenceEnv.runtime) = .ok tx :=
    submitOutbound_ok (Option.some_ne_none _) (Option.some_ne_none _) hlength rfl rfl rfl
      (fun _ hpays => client_send_builds hpays)
  refine ⟨tx, ?_⟩
  simp only [driveDepositSend, driveSend, bind_ok_iff, orError_eq_ok, noopUnless_eq_ok,
    exists_const]
  exact ⟨c, hc, fun hsame => hmanagers hsame.2, _, hfetch, htx⟩

theorem driveDepositRefund_ok (hpair : depositPair w₁) (hflow : depositStalled w₂) :
    ∃ tx, driveDepositRefund w₁ w₂ = .ok tx := by
  obtain ⟨c, hc, hpair⟩ := (Option.any_eq_true _ _).mp hpair
  obtain ⟨f, hf, hflow⟩ := (Option.any_eq_true _ _).mp hflow
  obtain ⟨hbase, hmanagers, -⟩ := of_decide_eq_true hpair
  obtain ⟨hstatus, hlength, hdue⟩ := of_decide_eq_true hflow
  have hfetch := @fetchFlowOf_deposit w₁ w₂ f _ hbase hf
  rw [hstatus] at hfetch
  obtain ⟨tx, htx⟩ : ∃ tx, submitOutbound referenceEnv.runtime
      ⟨Relayer.cranker, some sendLookupTable⟩ (depositOutboundReads w₁ w₂) .deposit
      Relayer.outboxItem true c.nttBaseProgram c.baseMint c inboxItemKey f
      (referenceClient.refund referenceEnv.runtime) = .ok tx :=
    submitOutbound_ok (Option.some_ne_none _) (Option.some_ne_none _) hlength rfl rfl rfl
      (fun _ hpays => client_refund_builds hpays)
  refine ⟨tx, ?_⟩
  simp only [driveDepositRefund, driveRefund, bind_ok_iff, orError_eq_ok, noopUnless_eq_ok,
    exists_const]
  exact ⟨c, hc, _, hfetch, _, rfl, hdue, hmanagers, htx⟩

end

/-- The pair is set up, then `us` happens, then `vs`. -/
structure Stages (us vs : List Relayer.Action) (ts us' vs' : List RelayerTransition)
    (w₁ w₂ w : RelayerWorld) : Prop where
  config : RelayerRun referenceEnv (Relayer.genesis 1000000000) ts w₁
  flow : RelayerRun referenceEnv w₁ us' w₂
  late : RelayerRun referenceEnv w₂ vs' w
  flow_acts : us'.map Transition.act = us
  late_acts : vs'.map Transition.act = vs
  pair : depositPair w₁
  classic : depositPair w
  slot : w₂.clock.slot ≤ w.clock.slot

section

variable {us vs : List Relayer.Action} {ts us' vs' : List RelayerTransition}
variable {w₁ w₂ w : RelayerWorld}

theorem exists_stages {P : RelayerWorld → Prop}
    (htrusted : ∀ act ∈ us ++ vs, act.Trusted referenceEnv)
    (hflow : Relayer.Ends P
      (Relayer.executed 1000000000 ([bootstrapAction, initializeAction] ++ us)))
    (hlate : Relayer.Ends depositPair
      (Relayer.executed 1000000000 ([bootstrapAction, initializeAction] ++ us ++ vs))) :
    ∃ ts us' vs' w₁ w₂ w, Stages us vs ts us' vs' w₁ w₂ w ∧ P w₂ := by
  have hconfig : Relayer.Ends depositPair
      (Relayer.executed 1000000000 [bootstrapAction, initializeAction]) := by decide +kernel
  obtain ⟨ts, w₁, hr₁, hacts₁, hpair⟩ := Relayer.run_of_executed (by decide +kernel) hconfig
  obtain ⟨us', w₂, hr₂, hacts₂, hP⟩ := Relayer.run_on_of_executed
    (fun act hact => htrusted act (List.mem_append_left _ hact)) hflow hr₁ hacts₁
  obtain ⟨vs', w, hr, hacts, hclassic⟩ := Relayer.run_on_of_executed
    (fun act hact => htrusted act (List.mem_append_right _ hact)) hlate (hr₁.append hr₂)
    (by rw [List.map_append, hacts₁, hacts₂])
  have hpin := (run_effects Relayer.referenceEnv_lawful (Relayer.genesis_ok _).pinned
    (hr₁.append hr₂)).1
  exact ⟨ts, us', vs', w₁, w₂, w, ⟨hr₁, hr₂, hr, hacts₂, hacts, hpair, hclassic,
    run_slot_le Relayer.referenceEnv_lawful hpin hr⟩, hP⟩

theorem Stages.readAlong (h : Stages us vs ts us' vs' w₁ w₂ w) : ReadAlong referenceEnv.runtime
    referenceClient (depositOutboundReads w₁ w₂) w₁ w₂ w where
  config c hc := by
    rw [referenceClient_config]
    exact hc
  flow k f hf := by
    obtain ⟨rfl, hf⟩ := Option.ite_none_right_eq_some.mp hf
    exact hf
  slot s hs := Option.some.inj hs ▸ h.slot

theorem Stages.baseMint (h : Stages us vs ts us' vs' w₁ w₂ w) (c : PairConfig)
    (hc : pairConfigAt w.accounts (referenceClient.configPda referenceEnv.runtime) = some c) :
    (w.accounts c.baseMint).owner = tokenProgram := by
  rw [referenceClient_config] at hc
  have hpair := h.classic
  rw [depositPair, hc] at hpair
  exact (of_decide_eq_true hpair).2.2

/-- The only flow a driver finds is the deposit's. -/
theorem flow_of_reads {k : Pubkey} {f : Flow} (h : (depositOutboundReads w₁ w₂).flow k = some f) :
    k = flowKey :=
  (Option.ite_none_right_eq_some.mp h).1

theorem Stages.exists_late (h : Stages us vs ts us' vs' w₁ w₂ w) {p : Relayer.Action → Bool}
    (hp : ∃ act ∈ vs, p act = true) : ∃ tr ∈ vs', p tr.act = true := by
  obtain ⟨act, hact, hp⟩ := hp
  rw [← h.late_acts] at hact
  obtain ⟨tr, htr, rfl⟩ := List.mem_map.mp hact
  exact ⟨tr, htr, hp⟩

theorem Stages.forall_late (h : Stages us vs ts us' vs' w₁ w₂ w) {p : Relayer.Action → Bool}
    (hp : ∀ act ∈ vs, p act = false) : ∀ tr ∈ vs', p tr.act = false := by
  rw [← h.late_acts] at hp
  exact List.forall_mem_map.mp hp

theorem Stages.swapCount_eq (h : Stages us vs ts us' vs' w₁ w₂ w) {k : Pubkey}
    (hp : ∀ act ∈ vs, act.swaps k = false) : swapCount k vs' = 0 :=
  List.countP_eq_zero.mpr fun tr htr => by simp [h.forall_late hp tr htr]

end

/-- A `send` of the deposit, with `vs` before it arrives. -/
theorem exists_send (vs : List Relayer.Action)
    (htrusted : ∀ act ∈ [receiveAction, swapAction] ++ vs, act.Trusted referenceEnv)
    (hlate : Relayer.Ends depositPair (Relayer.executed 1000000000
      ([bootstrapAction, initializeAction] ++ [receiveAction, swapAction] ++ vs))) :
    ∃ ts us' vs' w₁ w₂ w tx, Stages [receiveAction, swapAction] vs ts us' vs' w₁ w₂ w ∧
      driveDepositSend w₁ w₂ = .ok tx := by
  have hflow : Relayer.Ends depositSwapped (Relayer.executed 1000000000
      ([bootstrapAction, initializeAction] ++ [receiveAction, swapAction])) := by decide +kernel
  obtain ⟨ts, us', vs', w₁, w₂, w, h, hswapped⟩ := exists_stages htrusted hflow hlate
  obtain ⟨tx, hdrive⟩ := driveDepositSend_ok h.pair hswapped
  exact ⟨ts, us', vs', w₁, w₂, w, tx, h, hdrive⟩

/-- A `refund` of the deposit that nobody swapped in time. -/
theorem exists_refund (vs : List Relayer.Action)
    (htrusted : ∀ act ∈ [receiveAction, Relayer.tickAction Relayer.refundTimeoutSlots] ++ vs,
      act.Trusted referenceEnv)
    (hlate : Relayer.Ends depositPair (Relayer.executed 1000000000
      ([bootstrapAction, initializeAction] ++
        [receiveAction, Relayer.tickAction Relayer.refundTimeoutSlots] ++ vs))) :
    ∃ ts us' vs' w₁ w₂ w tx,
      Stages [receiveAction, Relayer.tickAction Relayer.refundTimeoutSlots] vs ts us' vs' w₁ w₂ w ∧
      driveDepositRefund w₁ w₂ = .ok tx := by
  have hflow : Relayer.Ends depositStalled (Relayer.executed 1000000000
      ([bootstrapAction, initializeAction] ++
        [receiveAction, Relayer.tickAction Relayer.refundTimeoutSlots])) := by decide +kernel
  obtain ⟨ts, us', vs', w₁, w₂, w, h, hstalled⟩ := exists_stages htrusted hflow hlate
  obtain ⟨tx, hdrive⟩ := driveDepositRefund_ok h.pair hstalled
  exact ⟨ts, us', vs', w₁, w₂, w, tx, h, hdrive⟩

/-! ## However stale the reads are -/

section

variable {env : Env} {w₀ w₁ w₂ w : RelayerWorld} {ts us vs : List RelayerTransition}
variable {client : RelayerClient} {ctx : AdvanceContext} {reads : OutboundReads}
variable {direction : Direction} {outboxItem : Pubkey}

/-- What the drivers submit, however stale what they read has become. While the flow stays open, a
`send` goes through if and only if NTT pays the flow's amount out to its recipient, and a `refund`
if and only if NTT pays it back, unless a swap came first, which it is refused for; once the flow is
closed both are refused. -/
theorem outbound_submissions (hl : env.Lawful) (hg : Genesis env w₀)
    (hr₁ : RelayerRun env w₀ ts w₁) (hr₂ : RelayerRun env w₁ us w₂) (hr : RelayerRun env w₂ vs w)
    (hreads : ReadAlong env.runtime client reads w₁ w₂ w)
    (hclassic : ∀ c, pairConfigAt w.accounts (client.configPda env.runtime) = some c →
      (w.accounts c.baseMint).owner = tokenProgram) :
    (∀ tx, driveSend env.runtime client ctx reads direction outboxItem = .ok tx →
      ∃ cfg f, reads.config = some cfg ∧ reads.flow tx.ix.accounts.flow = some f ∧
        ((∀ tr ∈ vs, tr.act.closes tx.ix.accounts.flow = false) →
          ((∃ w', tx.send env.runtime w = .ok w') ↔ NttPays env.runtime tx.ix f
            (cfg.sendNttProgram f.direction) (inOut f.direction cfg.baseMint cfg.assetMint).2 w)) ∧
        ((∀ tr ∈ vs, tr.act.opens tx.ix.accounts.flow = false) →
          (∃ tr ∈ vs, tr.act.closes tx.ix.accounts.flow = true) →
          ∀ w', tx.send env.runtime w ≠ .ok w')) ∧
    (∀ tx, driveRefund env.runtime client ctx reads direction outboxItem = .ok tx →
      ∃ cfg f, reads.config = some cfg ∧ reads.flow tx.ix.accounts.flow = some f ∧
        ((∀ tr ∈ vs, tr.act.closes tx.ix.accounts.flow = false) →
          swapCount tx.ix.accounts.flow vs = 0 →
          ((∃ w', tx.refund env.runtime w = .ok w') ↔ NttPays env.runtime tx.ix f
            (cfg.receiveNttProgram f.direction) (inOut f.direction cfg.baseMint cfg.assetMint).1
            w)) ∧
        ((∀ tr ∈ vs, tr.act.closes tx.ix.accounts.flow = false) →
          0 < swapCount tx.ix.accounts.flow vs →
          tx.refund env.runtime w = .error (.custom .flowStatusMismatch)) ∧
        ((∀ tr ∈ vs, tr.act.opens tx.ix.accounts.flow = false) →
          (∃ tr ∈ vs, tr.act.closes tx.ix.accounts.flow = true) →
          ∀ w', tx.refund env.runtime w ≠ .ok w')) := by
  have hpin := (run_effects hl hg.pinned (hr₁.append hr₂)).1
  constructor
  · intro tx hdrive
    obtain ⟨cfg, f, params, h⟩ := driveSend_spec hdrive
    have haccs := accounts_of_send h
    refine ⟨cfg, f, h.config, haccs ▸ h.flow, ?_, ?_⟩
    · exact h.send_iff hl hg hr₁ hr₂ hr hreads hclassic
    · intro hunopened hclosed w'
      rw [haccs] at hunopened hclosed
      exact (refused_of_gone haccs (closed_gone hl hpin hr hunopened hclosed) w').1
  · intro tx hdrive
    obtain ⟨cfg, f, params, slot, h, hslot, hdue⟩ := driveRefund_spec hdrive
    have haccs := accounts_of_refund h
    refine ⟨cfg, f, h.config, haccs ▸ h.flow, ?_, ?_, ?_⟩
    · exact h.refund_iff hl hg hr₁ hr₂ hr hreads hclassic hslot hdue
    · exact h.refund_swapped hl hg hr₁ hr₂ hr hreads hclassic
    · intro hunopened hclosed w'
      rw [haccs] at hunopened hclosed
      exact (refused_of_gone haccs (closed_gone hl hpin hr hunopened hclosed) w').2

end

/-- Drivers of the reference deposit. A withdraw comes in between, then another cranker's `send`,
a withdraw again, a late `swap` and another cranker's `refund`. -/
theorem outbound_submissions_reference :
    (∃ ts us vs w₁ w₂ w tx cfg f,
      Stages [receiveAction, swapAction] [Relayer.withdrawReceiveAction] ts us vs w₁ w₂ w ∧
      driveDepositSend w₁ w₂ = .ok tx ∧ (depositOutboundReads w₁ w₂).config = some cfg ∧
      (depositOutboundReads w₁ w₂).flow tx.ix.accounts.flow = some f ∧
      ((∃ w', tx.send referenceEnv.runtime w = .ok w') ↔
        NttPays referenceEnv.runtime tx.ix f (cfg.sendNttProgram f.direction)
          (inOut f.direction cfg.baseMint cfg.assetMint).2 w)) ∧
    (∃ ts us vs w₁ w₂ w tx,
      Stages [receiveAction, swapAction] [Relayer.sendAction] ts us vs w₁ w₂ w ∧
      driveDepositSend w₁ w₂ = .ok tx ∧ ∀ w', tx.send referenceEnv.runtime w ≠ .ok w') ∧
    (∃ ts us vs w₁ w₂ w tx cfg f,
      Stages [receiveAction, Relayer.tickAction Relayer.refundTimeoutSlots]
        [Relayer.withdrawReceiveAction] ts us vs w₁ w₂ w ∧
      driveDepositRefund w₁ w₂ = .ok tx ∧ (depositOutboundReads w₁ w₂).config = some cfg ∧
      (depositOutboundReads w₁ w₂).flow tx.ix.accounts.flow = some f ∧
      ((∃ w', tx.refund referenceEnv.runtime w = .ok w') ↔
        NttPays referenceEnv.runtime tx.ix f (cfg.receiveNttProgram f.direction)
          (inOut f.direction cfg.baseMint cfg.assetMint).1 w)) ∧
    (∃ ts us vs w₁ w₂ w tx,
      Stages [receiveAction, Relayer.tickAction Relayer.refundTimeoutSlots] [swapAction] ts us vs
        w₁ w₂ w ∧
      driveDepositRefund w₁ w₂ = .ok tx ∧
      tx.refund referenceEnv.runtime w = .error (.custom .flowStatusMismatch)) ∧
    (∃ ts us vs w₁ w₂ w tx,
      Stages [receiveAction, Relayer.tickAction Relayer.refundTimeoutSlots] [Relayer.refundAction]
        ts us vs w₁ w₂ w ∧
      driveDepositRefund w₁ w₂ = .ok tx ∧ ∀ w', tx.refund referenceEnv.runtime w ≠ .ok w') := by
  refine ⟨?_, ?_, ?_, ?_, ?_⟩
  · obtain ⟨ts, us, vs, w₁, w₂, w, tx, h, hdrive⟩ := exists_send [Relayer.withdrawReceiveAction]
      (by decide +kernel) (by decide +kernel)
    obtain ⟨cfg, f, hcfg, hf, hopen, -⟩ := (outbound_submissions Relayer.referenceEnv_lawful
      (Relayer.genesis_ok _) h.config h.flow h.late h.readAlong h.baseMint).1 tx hdrive
    rw [flow_of_reads hf] at hopen
    exact ⟨ts, us, vs, w₁, w₂, w, tx, cfg, f, h, hdrive, hcfg, hf,
      hopen (h.forall_late (by decide +kernel))⟩
  · obtain ⟨ts, us, vs, w₁, w₂, w, tx, h, hdrive⟩ := exists_send [Relayer.sendAction]
      (by decide +kernel) (by decide +kernel)
    obtain ⟨cfg, f, hcfg, hf, -, hclosed⟩ := (outbound_submissions Relayer.referenceEnv_lawful
      (Relayer.genesis_ok _) h.config h.flow h.late h.readAlong h.baseMint).1 tx hdrive
    rw [flow_of_reads hf] at hclosed
    exact ⟨ts, us, vs, w₁, w₂, w, tx, h, hdrive,
      hclosed (h.forall_late (by decide +kernel)) (h.exists_late (by decide +kernel))⟩
  · obtain ⟨ts, us, vs, w₁, w₂, w, tx, h, hdrive⟩ := exists_refund [Relayer.withdrawReceiveAction]
      (by decide +kernel) (by decide +kernel)
    obtain ⟨cfg, f, hcfg, hf, hopen, -, -⟩ := (outbound_submissions Relayer.referenceEnv_lawful
      (Relayer.genesis_ok _) h.config h.flow h.late h.readAlong h.baseMint).2 tx hdrive
    rw [flow_of_reads hf] at hopen
    exact ⟨ts, us, vs, w₁, w₂, w, tx, cfg, f, h, hdrive, hcfg, hf,
      hopen (h.forall_late (by decide +kernel)) (h.swapCount_eq (by decide +kernel))⟩
  · obtain ⟨ts, us, vs, w₁, w₂, w, tx, h, hdrive⟩ := exists_refund [swapAction]
      (by decide +kernel) (by decide +kernel)
    obtain ⟨cfg, f, hcfg, hf, -, hswapped, -⟩ := (outbound_submissions Relayer.referenceEnv_lawful
      (Relayer.genesis_ok _) h.config h.flow h.late h.readAlong h.baseMint).2 tx hdrive
    rw [flow_of_reads hf] at hswapped
    refine ⟨ts, us, vs, w₁, w₂, w, tx, h, hdrive, hswapped (h.forall_late (by decide +kernel)) ?_⟩
    exact List.countP_pos_iff.mpr (h.exists_late (by decide +kernel))
  · obtain ⟨ts, us, vs, w₁, w₂, w, tx, h, hdrive⟩ := exists_refund [Relayer.refundAction]
      (by decide +kernel) (by decide +kernel)
    obtain ⟨cfg, f, hcfg, hf, -, -, hclosed⟩ := (outbound_submissions Relayer.referenceEnv_lawful
      (Relayer.genesis_ok _) h.config h.flow h.late h.readAlong h.baseMint).2 tx hdrive
    rw [flow_of_reads hf] at hclosed
    exact ⟨ts, us, vs, w₁, w₂, w, tx, h, hdrive,
      hclosed (h.forall_late (by decide +kernel)) (h.exists_late (by decide +kernel))⟩

end FogoYield.Cranker
