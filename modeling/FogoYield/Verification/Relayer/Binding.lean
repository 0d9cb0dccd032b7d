import FogoYield.Verification.Relayer.Lifecycle
import FogoYield.Verification.Relayer.Receipt

/-! # Recipient and floor binding

An open flow is bound to an inbox item, and through the item's recipient to the wallet and the
floor its sender signed for. The binding is followed from `receive` to the NTT call that pays
out. -/

namespace FogoYield.Relayer

open FogoYield.Library FogoYield.Solana

/-! ## The binding of an open flow -/

/-- What an open flow is bound to: the pair and the inbox item its address is derived from, and
the wallet and floor the item's recipient is derived from. -/
structure FlowBound (env : Env) (w : RelayerWorld) (k : Pubkey) (f : Flow) (pair item : Pubkey)
    (c : PairConfig) (i : InboxItem) : Prop where
  address : env.runtime.findProgramAddress (flowSeeds f.direction pair item) programId = (k, f.bump)
  config_at : pairConfigAt w.accounts pair = some c
  item_at : inboxItemAt (c.receiveNttProgram f.direction) w.accounts item = some i
  recipient : i.recipientAddress =
    (env.runtime.findProgramAddress (userInboxSeeds f.recipient f.minSwapOut) programId).1
  min_pos : 0 < f.minSwapOut
  amount_pos : 0 < f.amount
  slot_le : f.receivedSlot ≤ w.clock.slot

def FlowsBound (env : Env) (w : RelayerWorld) : Prop :=
  ∀ k f, flowAt w.accounts k = some f → ∃ pair item c i, FlowBound env w k f pair item c i

/-- A flow that only changed its amount and status stays bound across any step. -/
theorem FlowBound.step {env : Env} (hl : env.Lawful) {w w' : RelayerWorld} {act : Action}
    {k pair item : Pubkey} {f f' : Flow} {c : PairConfig} {i : InboxItem} (hpin : Pinned env w)
    (he : Effect env w act w') (h : FlowBound env w k f pair item c i) (hs : SameFlow f f')
    (hpos : 0 < f'.amount) : ∃ c' i', FlowBound env w' k f' pair item c' i' := by
  obtain ⟨c', hc', hstat⟩ := he.pair_kept h.config_at
  have hp := hpin.receiveNttProgram h.config_at f.direction
  obtain ⟨j, hj, hev⟩ := (he.ambient hl hpin).item _ hp item i h.item_at
  refine ⟨c', j, ?_, hc', ?_, ?_, ?_, hpos, ?_⟩
  · rw [hs.direction, hs.bump]
    exact h.address
  · rw [hs.direction, hstat.receiveNttProgram]
    exact hj
  · rw [hev.recipient, hs.recipient, hs.minSwapOut]
    exact h.recipient
  · rw [hs.minSwapOut]
    exact h.min_pos
  · rw [hs.receivedSlot]
    exact UInt64.le_trans h.slot_le he.slot_le

theorem flowBound_of_receive {env : Env} (hl : env.Lawful) {w w' : RelayerWorld} {ctx : Context}
    {accs : ReceiveAccounts} {args : ReceiveArgs} {c : PairConfig} {mint : Mint} {bump : UInt8}
    {w₀ w₁ w₂ : RelayerWorld} {inbox : InboxItem} {held : TokenAccount} (hpin : Pinned env w)
    (he : Effect env w (.receive ctx accs args) w')
    (hs : ReceiveSpec env.runtime ctx accs args w w' c mint bump w₀ w₁ w₂ inbox held) :
    ∃ c', FlowBound env w' accs.flow (receivedFlow accs args bump inbox.amount w.clock.slot)
      accs.pairConfig accs.nttInboxItem c' inbox := by
  have hp := hpin.receiveNttProgram hs.config_at args.direction
  obtain ⟨m, -, htaken⟩ := receive_item hl hp hs
  obtain ⟨sender, hchecks⟩ := hs.checks
  obtain ⟨c', hc', hstat⟩ := he.pair_kept hs.config_at
  refine ⟨c', hs.flow_address, hc', ?_, ?_, hchecks.min_pos, hs.swept.amount_pos, he.slot_le⟩
  · show inboxItemAt (c'.receiveNttProgram args.direction) _ _ = _
    rw [hstat.receiveNttProgram]
    exact receive_item_after hl hp hs htaken.item_at
  · rw [hs.swept.recipient, hchecks.inbox_authority]
    rfl

/-- The output of a swap is positive: it clears the floor, and a fee never takes all of it. -/
theorem SwapSpec.netOut_pos {rt : RelayerRuntime} {ctx : Context} {accs : SwapAccounts}
    {data : Bytes} {w w' : RelayerWorld} {loaded : FlowLoaded}
    {swapIn feeBefore out netOut fee : UInt64} {w₁ w₂ w₃ : RelayerWorld}
    (h : SwapSpec rt ctx accs data w w' loaded swapIn feeBefore out netOut fee w₁ w₂ w₃)
    (hmin : 0 < loaded.flow.minSwapOut) : 0 < netOut := by
  have hout := h.output.outcome
  cases hd : loaded.flow.direction with
  | deposit =>
      simp only [hd] at hout
      exact hout.2.2.1
  | withdraw =>
      simp only [hd] at hout
      obtain ⟨_, _, _, _, _, _, _, hm⟩ := h.measured
      rw [hout.1]
      exact UInt64.lt_of_lt_of_le hmin hm.floor

theorem flowsBound_step {env : Env} (hl : env.Lawful) {w w' : RelayerWorld} {act : Action}
    (hpin : Pinned env w) (hinv : FlowsBound env w) (he : Effect env w act w') :
    FlowsBound env w' := by
  intro k f hf
  cases he.flowStep k with
  | kept _ heq =>
      obtain ⟨pair, item, c, i, hb⟩ := hinv k f (heq ▸ hf)
      obtain ⟨c', i', hb'⟩ := hb.step hl hpin he (.refl f) hb.amount_pos
      exact ⟨pair, item, c', i', hb'⟩
  | received hk hs _ hafter =>
      subst hk
      obtain rfl := Option.some.inj (hafter.symm.trans hf)
      obtain ⟨c', hb⟩ := flowBound_of_receive hl hpin he hs
      exact ⟨_, _, c', _, hb⟩
  | @swapped _ _ _ _ loaded _ _ _ _ _ _ _ _ _ hs hbefore hafter =>
      obtain ⟨pair, item, c, i, hb⟩ := hinv k _ hbefore
      have hpos := hs.netOut_pos hb.min_pos
      have hf' := Option.some.inj (hafter.symm.trans hf)
      have hsame : SameFlow loaded.flow f := by
        rw [← hf']
        exact ⟨rfl, rfl, rfl, rfl, rfl, rfl⟩
      have hamount : 0 < f.amount := by
        rw [← hf']
        exact hpos
      obtain ⟨c', i', hb'⟩ := hb.step hl hpin he hsame hamount
      exact ⟨pair, item, c', i', hb'⟩
  | sent _ _ _ _ hnone => simp [hnone] at hf
  | refunded _ _ _ _ _ hnone => simp [hnone] at hf

theorem run_flowsBound {env : Env} (hl : env.Lawful) {w₀ w : RelayerWorld}
    {ts : List RelayerTransition} (hg : Genesis env w₀) (hr : RelayerRun env w₀ ts w) :
    FlowsBound env w := by
  induction hr with
  | nil =>
      intro k f hf
      simp [hg.flowAt_none k] at hf
  | snoc hr hstep ih =>
      have hpin := (run_effects hl hg.pinned hr).1
      exact flowsBound_step hl hpin ih (hstep.effect hl hpin)

/-- The pair and item accounts `swap`, `send` and `refund` are given are the flow's own. -/
theorem FlowBound.of_load {env : Env} (hl : env.Lawful) {w : RelayerWorld} {accs : FlowAccounts}
    {loaded : FlowLoaded} (hb : FlowsBound env w) (h : FlowLoad env.runtime accs w loaded) :
    ∃ i, FlowBound env w accs.flow loaded.flow accs.pairConfig accs.nttInboxItem loaded.config
      i := by
  obtain ⟨pair, item, c, i, hbound⟩ := hb accs.flow loaded.flow h.flow_at
  obtain ⟨-, rfl, rfl⟩ :=
    flow_inj_of_create hl.address h.flow_address (congrArg Prod.fst hbound.address)
  obtain rfl := Option.some.inj (hbound.config_at.symm.trans h.config_at)
  exact ⟨i, hbound⟩

/-! ## End to end -/

/-- An inbox item's recipient is fixed from the moment any manager holds it, and so is the
manager. -/
theorem item_fixed {env : Env} (hl : env.Lawful) {w w' : RelayerWorld}
    {ts : List RelayerTransition} (hpin : Pinned env w) (hr : RelayerRun env w ts w')
    {p q item : Pubkey} {i j : InboxItem} (hq : (env.nttMint q).isSome)
    (hi : inboxItemAt p w'.accounts item = some i) (hj : inboxItemAt q w.accounts item = some j) :
    i.recipientAddress = j.recipientAddress := by
  obtain ⟨j', hj', hev⟩ := (run_ambient hl hpin hr).item q hq item j hj
  obtain ⟨hp, hload⟩ := inboxItemAt_eq_some.mp hi
  obtain ⟨hq', hload'⟩ := inboxItemAt_eq_some.mp hj'
  rw [hload] at hload'
  rw [Except.ok.inj hload', hev.recipient]

/-- What `swap` of a flow measured and wrote: the route, called on the way from `w` to `w'`, raised
the output account by `out`, which is at least the floor, and the flow now holds `out` less the
deposit fee. -/
def SwapsAbove (env : Env) (ctx : Context) (accs : SwapAccounts) (data : Bytes)
    (wallet : Pubkey) (floor : UInt64) (w w' : RelayerWorld) : Prop :=
  ∃ c f f' out before after, pairConfigAt w.accounts accs.pairConfig = some c ∧
    flowAt w.accounts accs.flow = some f ∧ flowAt w'.accounts accs.flow = some f' ∧
    f.recipient = wallet ∧ f.minSwapOut = floor ∧ Calls env.runtime w before ∧
    Called env.runtime (routerIx ctx accs data) before after ∧
    (∃ u event, Calls env.runtime after u ∧
      w' = (writeAccount accs.flow (.flow f') u).emit event) ∧
    balance after.accounts (inOut f.direction accs.baseAta accs.assetAta).2 =
      balance before.accounts (inOut f.direction accs.baseAta accs.assetAta).2 + out ∧
    floor.toNat ≤ out ∧
    f'.amount.toNat = match f.direction with
      | .deposit => out - out * c.depositFeeBps.toNat / 10000
      | .withdraw => out

/-- What `send` or `refund` of a flow told NTT: one `transfer_lock` of exactly the flow's amount to
`wallet` on FOGO, unqueued, under the manager `manager` picks from the pair's config, which is as
`initialize` pinned it. -/
def LocksFor (manager : PairConfig → Direction → Pubkey) (accs : OutboundAccounts)
    (wallet : Pubkey) (ts : List RelayerTransition) (w w' : RelayerWorld) : Prop :=
  ∃ c f source session lockMetas publishMetas,
    pairConfigAt w.accounts accs.pairConfig = some c ∧
    (∃ tr ∈ ts, InitializedAs accs.pairConfig c tr) ∧
    flowAt w.accounts accs.flow = some f ∧ f.recipient = wallet ∧
    w'.cpis = w.cpis ++
      [approveIx accs.tokenProgram source session accs.relayerAuthority f.amount,
      ⟨manager c f.direction, lockMetas, nttTransferLockIx ++
        NttTransferArgs.serialize ⟨f.amount, 51, wallet.bytes, false⟩⟩,
      ⟨manager c f.direction, publishMetas, nttReleaseWormholeOutboundIx ++ [boolByte false]⟩]

/-- Revoking and approving moves no tokens. -/
theorem DelegatesPrepared.balance_eq {env : Env} (hl : env.Lawful) {accs : SwapAccounts}
    {loaded : FlowLoaded} {swapIn : UInt64} {w w₁ w₂ w₃ : RelayerWorld}
    (htp : IsTokenProgram accs.tokenProgram)
    (h : DelegatesPrepared env.runtime accs loaded swapIn w w₁ w₂ w₃) (k : Pubkey) :
    balance w₃.accounts k = balance w.accounts k := by
  have hb := h.revoke_base.invoked
  have ha := h.revoke_asset.invoked
  rw [hl.token.revoke _ _ _ _ htp] at hb ha
  have hrevoked : balance w₂.accounts k = balance w.accounts k :=
    (revoke_balance ha k).trans (revoke_balance hb k)
  rcases h.approve with rfl | happrove
  · exact hrevoked
  · have hp := happrove.invoked
    rw [hl.token.approve _ _ _ _ _ _ htp] at hp
    rw [approve_balance hp, hrevoked]

theorem inOut_snd_balance {a : RelayerAccounts} {base asset : Pubkey} {b s : TokenAccount}
    (hb : tokenAt a base = some b) (hs : tokenAt a asset = some s) (d : Direction) :
    balance a (inOut d base asset).2 = (inOut d b.amount s.amount).2.toNat := by
  cases d
  · exact balance_of_tokenAt hs
  · exact balance_of_tokenAt hb

theorem swapsAbove_of_spec {env : Env} (hl : env.Lawful) {ctx : Context} {accs : SwapAccounts}
    {data : Bytes} {w w' : RelayerWorld} {loaded : FlowLoaded}
    {swapIn feeBefore out netOut fee : UInt64} {w₁ w₂ w₃ : RelayerWorld}
    (h : SwapSpec env.runtime ctx accs data w w' loaded swapIn feeBefore out netOut fee w₁ w₂ w₃)
    (hafter : flowAt w'.accounts accs.flow =
      some { loaded.flow with amount := netOut, status := .swapped }) :
    SwapsAbove env ctx accs data loaded.flow.recipient loaded.flow.minSwapOut w w' := by
  have htp := h.load.token_program
  obtain ⟨base, asset, base', asset', v₁, v₂, v₃, hm⟩ := h.measured
  refine ⟨loaded.config, loaded.flow, _, out.toNat, v₃, w₂, h.load.config_at, h.load.flow_at,
    hafter, rfl, rfl, (h.input.calls htp).trans (hm.prepared.calls htp), hm.router,
    ⟨w₃, _, h.output.calls htp, h.result⟩, ?_, UInt64.le_iff_toNat_le.mp hm.floor, ?_⟩
  · rw [hm.prepared.balance_eq hl htp,
      inOut_snd_balance hm.base_before hm.asset_before,
      inOut_snd_balance hm.base_after hm.asset_after, hm.output]
  · have hout := h.output.outcome
    cases hd : loaded.flow.direction with
    | deposit =>
        simp only [hd] at hout
        obtain ⟨hfee, hsum, -, -⟩ := hout
        show netOut.toNat = out.toNat - out.toNat * loaded.config.depositFeeBps.toNat / 10000
        rw [← hfee]
        omega
    | withdraw =>
        simp only [hd] at hout
        show netOut.toNat = out.toNat
        rw [hout.1]

theorem locksFor_of_spec {env : Env} (hl : env.Lawful) {w₀ w w' : RelayerWorld}
    {before after : List RelayerTransition} {tr : RelayerTransition} (hg : Genesis env w₀)
    (hr : RelayerRun env w₀ before w) {ctx : Context} {accs : OutboundAccounts} {count : UInt8}
    {loaded : FlowLoaded} {manager : PairConfig → Direction → Pubkey} {fromAta : Pubkey}
    {event : Event} {w₁ w₂ w₃ : RelayerWorld}
    (h : OutboundSpec env.runtime ctx accs count w w' loaded
      (manager loaded.config loaded.flow.direction) fromAta event w₁ w₂ w₃) :
    LocksFor manager accs loaded.flow.recipient (before ++ tr :: after) w w' := by
  obtain ⟨b, u, a, rfl, hinit, -⟩ := run_initializedAs hl hg hr _ _ h.load.config_at
  exact ⟨loaded.config, loaded.flow, _, _, _, _, h.load.config_at, ⟨u, by simp, hinit⟩,
    h.load.flow_at, rfl, h.cpis_eq⟩

/-- Recipient and floor, end to end: if an inbox item is addressed to the inbox of `wallet` and
`floor`, every flow ever received for it is for `wallet` with that floor, every swap of it comes
out at or above the floor, and every `send` or `refund` of it locks exactly its amount for
`wallet` on FOGO under the pair's manager for the leg. -/
theorem recipient_floor_binding {env : Env} (hl : env.Lawful) {w₀ w : RelayerWorld}
    {ts : List RelayerTransition} (hg : Genesis env w₀) (hr : RelayerRun env w₀ ts w)
    {p item wallet : Pubkey} {floor : UInt64} {i : InboxItem}
    (hi : inboxItemAt p w.accounts item = some i)
    (hrec : i.recipientAddress =
      (env.runtime.findProgramAddress (userInboxSeeds wallet floor) programId).1) :
    ∀ tr ∈ ts,
      (∀ ctx accs args, tr.act = .receive ctx accs args → accs.nttInboxItem = item →
        ∃ f, flowAt tr.post.accounts accs.flow = some f ∧ f.recipient = wallet ∧
          f.minSwapOut = floor ∧ 0 < floor) ∧
      (∀ ctx accs data, tr.act = .swap ctx accs data → accs.nttInboxItem = item →
        SwapsAbove env ctx accs data wallet floor tr.pre tr.post) ∧
      (∀ ctx accs count, tr.act = .send ctx accs count → accs.nttInboxItem = item →
        LocksFor PairConfig.sendNttProgram accs wallet ts tr.pre tr.post) ∧
      (∀ ctx accs count, tr.act = .refund ctx accs count → accs.nttInboxItem = item →
        LocksFor PairConfig.receiveNttProgram accs wallet ts tr.pre tr.post) := by
  intro tr htr
  obtain ⟨before, after, rfl⟩ := List.append_of_mem htr
  obtain ⟨hbefore, hstep, hafter⟩ := hr.split
  have hpin := (run_effects hl hg.pinned hbefore).1
  have he := hstep.effect hl hpin
  have hpin' := he.pinned hpin
  have hbound := run_flowsBound hl hg hbefore
  have hbound' := flowsBound_step hl hpin hbound he
  -- a flow bound to the item, before or after the step, is bound to `wallet` and `floor`
  have hwallet : ∀ u us k f pair c j, Pinned env u → RelayerRun env u us w →
      FlowBound env u k f pair item c j → f.recipient = wallet ∧ f.minSwapOut = floor := by
    intro u us k f pair c j hu hrun hb
    have hfixed := item_fixed hl hu hrun (hu.receiveNttProgram hb.config_at _) hi hb.item_at
    rw [hrec, hb.recipient] at hfixed
    obtain ⟨hw, hm⟩ := userInbox_inj hl.address hfixed
    exact ⟨hw.symm, hm.symm⟩
  have hrun : RelayerRun env tr.pre (tr :: after) w := .cons hstep hafter
  refine ⟨?_, ?_, ?_, ?_⟩
  · intro ctx accs args hact hitem
    rw [hact] at he
    cases he.flowStep accs.flow with
    | kept hkey _ => simp [Action.flowKey] at hkey
    | received _ hs _ hpost =>
        obtain ⟨c', hb⟩ := flowBound_of_receive hl hpin he hs
        subst hitem
        obtain ⟨hw, hm⟩ := hwallet _ _ _ _ _ _ _ hpin' hafter hb
        exact ⟨_, hpost, hw, hm, hm ▸ hb.min_pos⟩
  · intro ctx accs data hact hitem
    rw [hact] at he
    cases he.flowStep accs.flow with
    | kept hkey _ => simp [Action.flowKey] at hkey
    | swapped _ hs hpre hpost =>
        obtain ⟨j, hb⟩ := FlowBound.of_load hl hbound hs.load
        subst hitem
        obtain ⟨rfl, rfl⟩ := hwallet _ _ _ _ _ _ _ hpin hrun hb
        exact swapsAbove_of_spec hl hs hpost
  · intro ctx accs count hact hitem
    rw [hact] at he
    cases he.flowStep accs.flow with
    | kept hkey _ => simp [Action.flowKey] at hkey
    | sent _ _ hs hpre hpost =>
        obtain ⟨j, hb⟩ := FlowBound.of_load hl hbound hs.load
        subst hitem
        obtain ⟨rfl, rfl⟩ := hwallet _ _ _ _ _ _ _ hpin hrun hb
        exact locksFor_of_spec hl hg hbefore hs
  · intro ctx accs count hact hitem
    rw [hact] at he
    cases he.flowStep accs.flow with
    | kept hkey _ => simp [Action.flowKey] at hkey
    | refunded _ _ _ hs hpre hpost =>
        obtain ⟨j, hb⟩ := FlowBound.of_load hl hbound hs.load
        subst hitem
        obtain ⟨rfl, rfl⟩ := hwallet _ _ _ _ _ _ _ hpin hrun hb
        exact locksFor_of_spec hl hg hbefore hs

/-- On the reference chain the deposit is swapped above the floor its user signed, and sent to
them. -/
theorem recipient_floor_binding_deposit :
    ∃ before swapped sent after w,
      RelayerRun referenceEnv (genesis 1000000000) (before ++ swapped :: sent :: after) w ∧
      (before ++ swapped :: sent :: after).map Transition.act = depositActions ∧
      (∃ ctx accs data, swapped.act = .swap ctx accs data ∧
        SwapsAbove referenceEnv ctx accs data user floor swapped.pre swapped.post) ∧
      ∃ ctx accs count, sent.act = .send ctx accs count ∧
        LocksFor PairConfig.sendNttProgram accs user (before ++ swapped :: sent :: after) sent.pre
          sent.post := by
  have hend : Ends (fun w =>
      (inboxItemAt nttUsdcProgram w.accounts inboxItemKey).map InboxItem.recipientAddress =
        some userInboxAuthority) (executed 1000000000 depositActions) := by decide +kernel
  have hinbox : userInboxAuthority =
    (referenceEnv.runtime.findProgramAddress (userInboxSeeds user floor) programId).1 := by
      decide +kernel
  obtain ⟨ts, w, hr, hacts, hitem⟩ := run_of_executed (by decide +kernel) hend
  obtain ⟨i, hi, hrec⟩ := Option.map_eq_some_iff.mp hitem
  have hlaw := recipient_floor_binding referenceEnv_lawful (genesis_ok _) hr hi (hrec.trans hinbox)
  have hsplit : depositActions = depositActions.take 4 ++
    swapAction :: sendAction :: depositActions.drop 6 := rfl
  rw [hsplit] at hacts
  obtain ⟨before, rest, rfl, -, hrest⟩ := List.map_eq_append_iff.mp hacts
  obtain ⟨swapped, rest, rfl, hswap, hrest⟩ := List.map_eq_cons_iff.mp hrest
  obtain ⟨sent, after, rfl, hsend, -⟩ := List.map_eq_cons_iff.mp hrest
  obtain ⟨-, hswapped, -, -⟩ := hlaw swapped (by simp)
  obtain ⟨-, -, hsent, -⟩ := hlaw sent (by simp)
  exact ⟨before, swapped, sent, after, w, hr, hacts.trans hsplit.symm,
    ⟨_, _, _, hswap, hswapped _ _ _ hswap rfl⟩, ⟨_, _, _, hsend, hsent _ _ _ hsend rfl⟩⟩

end FogoYield.Relayer
