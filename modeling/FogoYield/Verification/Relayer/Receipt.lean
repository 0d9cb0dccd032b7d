import FogoYield.Verification.Relayer.Authentication

/-! # One-shot receipt and paid-out messages

`receive` leaves replay protection to the inbox item, and payment to the balance of the shared
inbox account. This module says exactly how far each carries. -/

namespace FogoYield.Relayer

open FogoYield.Library FogoYield.Solana

/-! ## Paid-out messages -/

/-- An item comes out of a `receive` released exactly when it was released before, or its time has
come. -/
theorem ItemTaken.released_iff {env : Env} {p itemKey : Pubkey} {w w₁ : RelayerWorld}
    {inbox : InboxItem} {m : TransceiverMessage} (h : ItemTaken env p itemKey w w₁ inbox m) :
    inbox.releaseStatus = .released ↔
      (∃ i, inboxItemAt p w.accounts itemKey = some i ∧ i.releaseStatus = .released) ∨
        releaseTime env p w m ≤ w.clock.unixTimestamp := by
  rcases h.branch with ⟨hbefore, hreleased, -⟩ | ⟨hfresh, hstatus⟩
  · exact ⟨fun _ => .inl ⟨inbox, hbefore, hreleased⟩, fun _ => hreleased⟩
  · have hnot : ¬ ∃ i, inboxItemAt p w.accounts itemKey = some i ∧ i.releaseStatus = .released := by
      rintro ⟨i, hi, hrel⟩
      rw [hfresh i hi] at hrel
      cases hrel
    rw [hstatus, or_iff_right hnot, ← UInt64.not_lt]
    split <;> simp_all

/-- A `receive` leaves its inbox item released exactly when it was released before, or the rate
limiter does not make the message wait. -/
theorem receive_released_iff {env : Env} (hl : env.Lawful) {w₀ w w' : RelayerWorld}
    {ts : List RelayerTransition} (hg : Genesis env w₀) (hr : RelayerRun env w₀ ts w)
    {ctx : Context} {accs : ReceiveAccounts} {args : ReceiveArgs}
    (h : receive env.runtime ctx accs args w = .ok w') :
    ∃ c m, pairConfigAt w.accounts accs.pairConfig = some c ∧
      TransceiverMessage.decode (w.accounts accs.nttTransceiverMessage).bytes = some m ∧
      ((∃ i, inboxItemAt (c.receiveNttProgram args.direction) w'.accounts accs.nttInboxItem =
          some i ∧ i.releaseStatus = .released) ↔
        (∃ i, inboxItemAt (c.receiveNttProgram args.direction) w.accounts accs.nttInboxItem =
          some i ∧ i.releaseStatus = .released) ∨
        releaseTime env (c.receiveNttProgram args.direction) w m ≤ w.clock.unixTimestamp) := by
  obtain ⟨c, mint, bump, u₀, u₁, u₂, inbox, held, hs⟩ := receive_spec h
  have hp := (run_effects hl hg.pinned hr).1.receiveNttProgram hs.config_at args.direction
  obtain ⟨m, hauth, htaken⟩ := receive_item hl hp hs
  have hafter := receive_item_after hl hp hs htaken.item_at
  refine ⟨c, m, hs.config_at, hauth.message, ?_⟩
  rw [hafter, ← htaken.released_iff]
  constructor
  · rintro ⟨i, hi, hreleased⟩
    obtain rfl := Option.some.inj hi
    exact hreleased
  · intro hreleased
    exact ⟨inbox, rfl, hreleased⟩

/-- On the reference chain the deposit is released at once, so its time had come. -/
theorem receive_released_iff_deposit :
    ∃ ts w w' m, RelayerRun referenceEnv (genesis 1000000000) ts w ∧
      ts.map Transition.act = depositActions.take 3 ∧
      receive referenceEnv.runtime receiveContext receiveAccounts receiveArgs w = .ok w' ∧
      TransceiverMessage.decode (w.accounts transceiverMessage).bytes = some m ∧
      releaseTime referenceEnv nttUsdcProgram w m ≤ w.clock.unixTimestamp := by
  have hend : Ends (fun w => Ends (fun w' =>
      (pairConfigAt w.accounts pairConfigKey).map (PairConfig.receiveNttProgram · .deposit) =
        some nttUsdcProgram ∧
      inboxItemAt nttUsdcProgram w.accounts inboxItemKey = none ∧
      (inboxItemAt nttUsdcProgram w'.accounts inboxItemKey).map InboxItem.releaseStatus =
        some .released)
      (receiveAction.apply referenceEnv.runtime w))
      (executed 1000000000 (depositActions.take 3)) := by decide +kernel
  obtain ⟨ts, w, hr, hacts, hlast⟩ := run_of_executed (by decide +kernel) hend
  obtain ⟨w', happly, hconfig, hbefore, hafter⟩ := hlast.exists_ok
  obtain ⟨c, hc, hp⟩ := Option.map_eq_some_iff.mp hconfig
  obtain ⟨i, hi, hreleased⟩ := Option.map_eq_some_iff.mp hafter
  obtain ⟨c', m, hc', hm, hiff⟩ := receive_released_iff referenceEnv_lawful (genesis_ok _) hr happly
  obtain rfl := Option.some.inj (hc.symm.trans hc')
  change (∃ i, inboxItemAt (c.receiveNttProgram .deposit) w'.accounts inboxItemKey = some i ∧ _) ↔
    (∃ i, inboxItemAt (c.receiveNttProgram .deposit) w.accounts inboxItemKey = some i ∧ _) ∨
      releaseTime referenceEnv (c.receiveNttProgram .deposit) w m ≤ _ at hiff
  rw [hp, hbefore] at hiff
  refine ⟨ts, w, w', m, hr, hacts, happly, hm, ?_⟩
  rcases hiff.mp ⟨i, hi, hreleased⟩ with ⟨i, hnone, -⟩ | hle
  · cases hnone
  · exact hle

/-- On a reference chain that lets nothing in at once, a `receive` that finds tokens in the inbox
opens a flow for a message NTT has not paid out. -/
theorem receive_not_released :
    referenceEnv.Lawful ∧ Genesis referenceEnv (genesis 0) ∧
    ∃ ts w w' i, RelayerRun referenceEnv (genesis 0) ts w ∧
      ts.map Transition.act = delayedActions.dropLast ∧
      receive referenceEnv.runtime receiveContext receiveAccounts receiveArgs w = .ok w' ∧
      inboxItemAt nttUsdcProgram w'.accounts inboxItemKey = some i ∧
      i.releaseStatus ≠ .released := by
  have hend : Ends (fun w => Ends (fun w' =>
      (inboxItemAt nttUsdcProgram w'.accounts inboxItemKey).map InboxItem.releaseStatus =
        some (.releaseAfterDelay 1700086400))
      (receiveAction.apply referenceEnv.runtime w))
      (executed 0 delayedActions.dropLast) := by decide +kernel
  obtain ⟨ts, w, hr, hacts, hlast⟩ := run_of_executed (by decide +kernel) hend
  obtain ⟨w', happly, hitem⟩ := hlast.exists_ok
  obtain ⟨i, hi, hstatus⟩ := Option.map_eq_some_iff.mp hitem
  refine ⟨referenceEnv_lawful, genesis_ok _, ts, w, w', i, hr, hacts, happly, hi, ?_⟩
  rw [hstatus]
  exact ReleaseStatus.noConfusion

/-! ## Received once, approved for good -/

/-- A successful `receive` of `item` for this pair and direction. -/
def ReceivesItem (pair : Pubkey) (direction : Direction) (item : Pubkey)
    (tr : RelayerTransition) : Prop :=
  ∃ ctx accs args, tr.act = .receive ctx accs args ∧ accs.pairConfig = pair ∧
    args.direction = direction ∧ accs.nttInboxItem = item

/-- The item has been through `redeem` under the manager the pair pins for the direction. -/
def Approved (pair : Pubkey) (direction : Direction) (item : Pubkey) (w : RelayerWorld) : Prop :=
  ∃ c i, pairConfigAt w.accounts pair = some c ∧
    inboxItemAt (c.receiveNttProgram direction) w.accounts item = some i ∧
    i.releaseStatus ≠ .notApproved

theorem SameStatics.receiveNttProgram {c c' : PairConfig} (h : SameStatics c c')
    (d : Direction) : c'.receiveNttProgram d = c.receiveNttProgram d := by
  cases d
  · exact h.nttBaseProgram
  · exact h.nttAssetProgram

theorem notApproved_iff_stage (s : ReleaseStatus) : s = .notApproved ↔ s.stage = 0 := by
  cases s <;> simp [ReleaseStatus.stage]

theorem approved_of_receive {env : Env} (hl : env.Lawful) {w w' : RelayerWorld} {ctx : Context}
    {accs : ReceiveAccounts} {args : ReceiveArgs} (hpin : Pinned env w)
    (he : Effect env w (.receive ctx accs args) w') :
    Approved accs.pairConfig args.direction accs.nttInboxItem w' := by
  cases he with
  | receive hs hc =>
      have hp := hpin.receiveNttProgram hs.config_at args.direction
      obtain ⟨m, -, htaken⟩ := receive_item hl hp hs
      refine ⟨_, _, ?_, receive_item_after hl hp hs htaken.item_at, ?_⟩
      · rw [pairConfigAt, hc.view_eq (by simp [RelayerData.asPairConfig])]
        exact hs.config_at
      · rcases htaken.branch with ⟨-, hstatus, -⟩ | ⟨-, hstatus⟩
        · simp [hstatus]
        · rw [hstatus]
          split <;> simp

theorem approved_step {env : Env} (hl : env.Lawful) {w w' : RelayerWorld} {act : Action}
    {pair item : Pubkey} {d : Direction} (hpin : Pinned env w) (he : Effect env w act w')
    (h : Approved pair d item w) : Approved pair d item w' := by
  obtain ⟨c, i, hc, hi, hstatus⟩ := h
  obtain ⟨c', hc', hs⟩ := he.pair_kept hc
  obtain ⟨j, hj, hev⟩ := (he.ambient hl hpin).item _ (hpin.receiveNttProgram hc d) item i hi
  refine ⟨c', j, hc', by rwa [hs.receiveNttProgram], ?_⟩
  rw [Ne, notApproved_iff_stage] at hstatus ⊢
  have := hev.stage
  omega

/-- Once an item has been received it stays approved, so NTT will not redeem it again. -/
theorem approved_run {env : Env} (hl : env.Lawful) {w w' : RelayerWorld}
    {ts : List RelayerTransition} {pair item : Pubkey} {d : Direction} (hpin : Pinned env w)
    (hr : RelayerRun env w ts w') (h : Approved pair d item w) : Approved pair d item w' := by
  induction hr with
  | nil => exact h
  | snoc hr hstep ih =>
      have hp := (run_effects hl hpin hr).1
      exact approved_step hl hp (hstep.effect hl hp) ih

/-! ## One-shot receipt -/

/-- The item is not received twice for the pair and direction. -/
def OneShot (pair : Pubkey) (direction : Direction) (item : Pubkey)
    (ts : List RelayerTransition) : Prop :=
  ∀ before tr mid tr' after, ts = before ++ tr :: (mid ++ tr' :: after) →
    ReceivesItem pair direction item tr → ¬ ReceivesItem pair direction item tr'

/-- An item of the pair and direction lies parked: nothing is at its flow's address, it is released,
and its recipient's token account holds its amount, as it does when a message to the same inbox
was paid out, or when somebody deposited there. -/
def Parked (rt : RelayerRuntime) (pair : Pubkey) (direction : Direction) (item : Pubkey)
    (w : RelayerWorld) : Prop :=
  Unused w.accounts (rt.findProgramAddress (flowSeeds direction pair item) programId).1 ∧
    ∃ c ∈ pairConfigAt w.accounts pair,
      ∃ i ∈ inboxItemAt (c.receiveNttProgram direction) w.accounts item,
        i.releaseStatus = .released ∧ 0 < i.amount ∧
          i.amount.toNat ≤ balance w.accounts (rt.ata i.recipientAddress (c.receiveMint direction)
            (w.accounts (c.receiveMint direction)).owner)

instance (rt : RelayerRuntime) (pair : Pubkey) (direction : Direction) (item : Pubkey) :
    DecidablePred (Parked rt pair direction item) :=
  fun _ => inferInstanceAs (Decidable (_ ∧ _))

/-- A `receive` of an approved item takes the skip branch, on tokens that were there already. -/
theorem parked_of_approved {env : Env} (hl : env.Lawful) {w w' : RelayerWorld} {ctx : Context}
    {accs : ReceiveAccounts} {args : ReceiveArgs} (hpin : Pinned env w)
    (hwf : AtaWellFormed env.runtime w.accounts)
    (ha : Approved accs.pairConfig args.direction accs.nttInboxItem w)
    (he : Effect env w (.receive ctx accs args) w') :
    Parked env.runtime accs.pairConfig args.direction accs.nttInboxItem w := by
  obtain ⟨c', j, hc', hj, hstatus⟩ := ha
  cases he with
  | receive hs hc =>
      obtain rfl := Option.some.inj (hs.config_at.symm.trans hc')
      obtain ⟨sender, hchecks⟩ := hs.checks
      have hp := hpin.receiveNttProgram hs.config_at args.direction
      obtain ⟨m, -, htaken⟩ := receive_item hl hp hs
      refine ⟨?_, _, hs.config_at, ?_⟩
      · rw [hs.flow_address]
        exact ⟨hs.created.was_system, hs.created.was_empty⟩
      · rcases htaken.branch with ⟨hbefore, hreleased, hsame⟩ | ⟨hfresh, -⟩
        · have hheld := hs.swept.held_at
          have htp := (tokenAt_eq_some.mp hheld).1
          rw [(hsame _ (ne_programId_of_isTokenProgram htp)).tokenAt] at hheld
          -- the program that holds the tokens is the mint's
          obtain ⟨t, hata⟩ := hs.user_ata
          have htoken := hata.token
          rw [← hata.address] at htoken
          obtain ⟨-, -, howner⟩ := hwf _ _ _ t htoken
          refine ⟨_, hbefore, hreleased, hs.swept.amount_pos, ?_⟩
          rw [hs.swept.recipient, ← hchecks.mint, howner, hata.address,
            balance_of_tokenAt hheld, ← UInt64.le_iff_toNat_le]
          exact hs.swept.enough
        · exact absurd (hfresh j hj) hstatus

theorem approved_of_received {env : Env} (hl : env.Lawful) {w₀ w : RelayerWorld}
    {ts : List RelayerTransition} {pair item : Pubkey} {d : Direction} (hpin : Pinned env w₀)
    (hr : RelayerRun env w₀ ts w) (h : ∃ u ∈ ts, ReceivesItem pair d item u) :
    Approved pair d item w := by
  obtain ⟨u, hu, ctx, accs, args, hact, rfl, rfl, rfl⟩ := h
  obtain ⟨before, after, rfl⟩ := List.append_of_mem hu
  obtain ⟨hbefore, hstep, hafter⟩ := hr.split
  have hp := (run_effects hl hpin hbefore).1
  have he := hstep.effect hl hp
  have hpost := he.pinned hp
  rw [hact] at he
  exact approved_run hl hpost hafter (approved_of_receive hl hp he)

/-- Once the item has been received, it does not lie parked before any later step. -/
def NeverParked (rt : RelayerRuntime) (pair : Pubkey) (direction : Direction) (item : Pubkey)
    (ts : List RelayerTransition) : Prop :=
  ∀ before tr after, ts = before ++ tr :: after →
    (∃ u ∈ before, ReceivesItem pair direction item u) → ¬ Parked rt pair direction item tr.pre

/-- An item that never lies parked again is received at most once in a run: the redeem branch does
not replay, and the skip branch wants tokens that are there. -/
theorem one_shot_of_neverParked {env : Env} (hl : env.Lawful) {w₀ w : RelayerWorld}
    {ts : List RelayerTransition} (hg : Genesis env w₀) (hr : RelayerRun env w₀ ts w)
    {pair item : Pubkey} {direction : Direction}
    (hnever : NeverParked env.runtime pair direction item ts) : OneShot pair direction item ts := by
  rintro before tr mid tr' after rfl htr ⟨ctx, accs, args, hact, rfl, rfl, rfl⟩
  have hts : before ++ tr :: (mid ++ tr' :: after) = (before ++ tr :: mid) ++ tr' :: after := by
    simp
  have hearlier : ∃ u ∈ before ++ tr :: mid,
      ReceivesItem accs.pairConfig args.direction accs.nttInboxItem u := ⟨tr, by simp, htr⟩
  apply hnever _ tr' after hts hearlier
  rw [hts] at hr
  obtain ⟨hbefore, hstep, -⟩ := hr.split
  have hpin := (run_effects hl hg.pinned hbefore).1
  have he := hstep.effect hl hpin
  rw [hact] at he
  exact parked_of_approved hl hpin (run_ataWellFormed hl hg hbefore)
    (approved_of_received hl hg.pinned hbefore hearlier) he

/-- On the reference chain a refunded deposit does not come back by itself: once the flow is
closed, the inbox is empty. -/
theorem one_shot_of_neverParked_refund :
    ∃ ts w, RelayerRun referenceEnv (genesis 1000000000) ts w ∧
      ts.map Transition.act = refundedActions ∧ OneShot pairConfigKey .deposit inboxItemKey ts := by
  have hend : Ends (fun _ => True) (executed 1000000000 refundedActions) := by decide +kernel
  obtain ⟨ts, w, hr, hacts, -⟩ := run_of_executed (by decide +kernel) hend
  refine ⟨ts, w, hr, hacts, one_shot_of_neverParked referenceEnv_lawful (genesis_ok _) hr ?_⟩
  rintro before tr after rfl -
  have hbefore : before.map Transition.act = refundedActions.take before.length := by
    rw [← hacts]
    simp
  have hlength : before.length < refundedActions.length := by
    rw [← hacts]
    simp
  have hunparked : ∀ n < refundedActions.length,
      Ends (fun w => ¬ Parked referenceEnv.runtime pairConfigKey .deposit inboxItemKey w)
        (executed 1000000000 (refundedActions.take n)) := by decide +kernel
  exact holds_of_executed (hunparked _ hlength) hr.split.1 hbefore

theorem replay_run : ∃ ts w, RelayerRun referenceEnv (genesis 1000000000) ts w ∧
    ts.map Transition.act = replayActions := by
  have hend : Ends (fun _ => True) (executed 1000000000 replayActions) := by decide +kernel
  obtain ⟨ts, w, hr, hacts, -⟩ := run_of_executed (by decide +kernel) hend
  exact ⟨ts, w, hr, hacts⟩

/-- The two `receive`s of the replay are of one item. -/
theorem not_oneShot_of_replay {ts : List RelayerTransition}
    (h : ts.map Transition.act = replayActions) :
    ¬ OneShot pairConfigKey .deposit inboxItemKey ts := by
  have hsplit : replayActions = [bootstrapAction, initializeAction] ++ receiveAction ::
      ([tickAction refundTimeoutSlots, refundAction, .deposit userInboxAta depositAmount] ++
        receiveAction :: []) := rfl
  rw [hsplit] at h
  obtain ⟨before, rest, rfl, -, hrest⟩ := List.map_eq_append_iff.mp h
  obtain ⟨tr, rest, rfl, htr, hrest⟩ := List.map_eq_cons_iff.mp hrest
  obtain ⟨mid, rest, rfl, -, hrest⟩ := List.map_eq_append_iff.mp hrest
  obtain ⟨tr', after, rfl, htr', -⟩ := List.map_eq_cons_iff.mp hrest
  intro hone
  exact hone before tr mid tr' after rfl ⟨_, _, _, htr, rfl, rfl, rfl⟩
    ⟨_, _, _, htr', rfl, rfl, rfl⟩

/-- On the reference chain one deposit is received twice. -/
theorem received_twice :
    referenceEnv.Lawful ∧ Genesis referenceEnv (genesis 1000000000) ∧
    ∃ ts w, RelayerRun referenceEnv (genesis 1000000000) ts w ∧
      ts.map Transition.act = replayActions ∧ ¬ OneShot pairConfigKey .deposit inboxItemKey ts := by
  obtain ⟨ts, w, hr, hacts⟩ := replay_run
  exact ⟨referenceEnv_lawful, genesis_ok _, ts, w, hr, hacts, not_oneShot_of_replay hacts⟩

end FogoYield.Relayer
