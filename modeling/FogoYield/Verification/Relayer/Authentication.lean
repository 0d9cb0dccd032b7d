import FogoYield.Verification.Relayer.Addresses
import FogoYield.Verification.Relayer.Governance

/-! # What `receive` knows about the message it opens a flow for

The redeem branch gets the binding of message and inbox item from NTT, through the pinned account
slots; the skip branch checks it itself. Both end with the same facts. -/

namespace FogoYield.Relayer

open FogoYield.Library FogoYield.Solana

/-! ## Pinned account slots -/

/-- The slots of NTT's account lists that `receive` pins. -/
structure SlotsPinned (rt : RelayerRuntime) (redeemAccs releaseAccs : List AccountMeta)
    (nttProgram vtm item recipientAta : Pubkey) : Prop where
  vtm_at : keyAt redeemAccs redeemIdxTransceiverMessage = some vtm
  item_at : keyAt redeemAccs redeemIdxInboxItem = some item
  peer_at : keyAt redeemAccs redeemIdxPeer =
    some (deriveNttPeer rt nttProgram fogoWormholeChainId).1
  released_item_at : keyAt releaseAccs releaseIdxInboxItem = some item
  recipient_at : keyAt releaseAccs releaseIdxRecipientAta = some recipientAta

theorem validateNttRedeemReleaseAccounts_spec {rt : RelayerRuntime}
    {redeemAccs releaseAccs : List AccountMeta} {nttProgram vtm item recipientAta : Pubkey}
    (h : validateNttRedeemReleaseAccounts rt redeemAccs releaseAccs nttProgram vtm item
      recipientAta = .ok ()) :
    SlotsPinned rt redeemAccs releaseAccs nttProgram vtm item recipientAta := by
  simp only [validateNttRedeemReleaseAccounts, bind_eq_ok, require_eq_ok, exists_const] at h
  obtain ⟨-, hvtm, hitem, hpeer, -, hreleased, hrecipient⟩ := h
  exact ⟨hvtm, hitem, hpeer, hreleased, hrecipient⟩

/-! ## The message behind the bytes -/

theorem parseFogoSenderFromVtm_spec {data sender : Bytes}
    (h : parseFogoSenderFromVtm data = .ok sender) :
    data.take 8 = validatedTransceiverMessageDisc ∧ sender = slice data 106 32 := by
  simp only [parseFogoSenderFromVtm, bind_eq_ok, require_eq_ok, pure_eq_ok, exists_const] at h
  obtain ⟨-, hdisc, -, rfl⟩ := h
  exact ⟨hdisc, rfl⟩

theorem ofLeBytes_slice_lt {data : Bytes} {offset n : ℕ} (h : offset + n ≤ data.length) :
    ofLeBytes (slice data offset n) < 256 ^ n := by
  have hlt := ofLeBytes_lt (slice data offset n)
  rwa [slice_length h] at hlt

theorem decode_eq_some {data : Bytes} {m : TransceiverMessage}
    (h : TransceiverMessage.decode data = some m) :
    data.take 8 = validatedTransceiverMessageDisc ∧ 213 ≤ data.length ∧
      m = { fromChain := UInt16.ofNat (ofLeBytes (slice data 8 2))
            id := slice data 74 32
            sender := slice data 106 32
            amount := UInt64.ofNat (ofLeBytes (slice data 138 8))
            decimals := UInt8.ofNat (ofLeBytes (slice data 146 1))
            sourceToken := slice data 147 32
            toChain := UInt16.ofNat (ofLeBytes (slice data 179 2))
            toAddress := slice data 181 32 } := by
  unfold TransceiverMessage.decode at h
  split at h
  · rename_i hd
    exact ⟨hd.1, hd.2, (Option.some.inj h).symm⟩
  · cases h

theorem singleton_of_length_one {bs : Bytes} (h : bs.length = 1) :
    [UInt8.ofNat (ofLeBytes bs)] = bs := by
  obtain ⟨b, rfl⟩ := List.length_eq_one_iff.mp h
  simp [ofLeBytes]

/-- The re-encoding `receive` hashes is the origin chain followed by the message's wire form. -/
theorem inboxItemHashInput_eq {data : Bytes} {m : TransceiverMessage}
    (h : TransceiverMessage.decode data = some m) :
    inboxItemHashInput data = beBytes 2 m.fromChain.toNat ++ m.wire := by
  obtain ⟨-, hlen, rfl⟩ := decode_eq_some h
  have hfrom : ofLeBytes (slice data 8 2) < 2 ^ 16 := ofLeBytes_slice_lt (by omega)
  have hamount : ofLeBytes (slice data 138 8) < 2 ^ 64 := ofLeBytes_slice_lt (by omega)
  have htoChain : ofLeBytes (slice data 179 2) < 2 ^ 16 := ofLeBytes_slice_lt (by omega)
  have hlen' : (slice data 146 1).length = 1 := slice_length (by omega)
  have hdec := singleton_of_length_one hlen'
  simp only [inboxItemHashInput, TransceiverMessage.wire, nttWirePrefix, hdec,
    transceiverMessageFromChainOffset, transceiverMessageIdOffset, transceiverMessageSenderOffset,
    transceiverMessageTrimmedAmountOffset, transceiverMessageTrimmedDecimalsOffset,
    transceiverMessageSourceTokenOffset, transceiverMessageToChainOffset,
    transceiverMessageToOffset, UInt16.toNat_ofNat', UInt64.toNat_ofNat']
  rw [Nat.mod_eq_of_lt hfrom, Nat.mod_eq_of_lt hamount, Nat.mod_eq_of_lt htoChain]

/-- The address the skip branch derives is NTT's own for that message. -/
theorem deriveInboxItemPdaFromVtm_spec {rt : RelayerRuntime} {p : Pubkey} {data : Bytes}
    {k : Pubkey} {b : UInt8} (hdisc : data.take 8 = validatedTransceiverMessageDisc)
    (h : deriveInboxItemPdaFromVtm rt p data = .ok (k, b)) :
    ∃ m, TransceiverMessage.decode data = some m ∧ k = inboxItemAddress rt p m := by
  simp only [deriveInboxItemPdaFromVtm, bind_eq_ok, require_eq_ok, pure_eq_ok,
    exists_const] at h
  obtain ⟨hlen, heq⟩ := h
  have hdec : ∃ m, TransceiverMessage.decode data = some m := by
    rw [TransceiverMessage.decode, if_pos ⟨hdisc, hlen⟩]
    exact ⟨_, rfl⟩
  obtain ⟨m, hm⟩ := hdec
  refine ⟨m, hm, ?_⟩
  rw [inboxItemAddress, ← inboxItemHashInput_eq hm, heq]

/-! ## Both branches -/

/-- The facts a `receive` establishes about the message account and the inbox item, on either
branch: the account is the manager's and holds the message `m`, the item's address is the one of
exactly `m`, and `m` came from FOGO, sent by one of the pair's intent setters. -/
structure Authenticated (rt : RelayerRuntime) (c : PairConfig) (accs : ReceiveAccounts)
    (direction : Direction) (w : RelayerWorld) (m : TransceiverMessage) : Prop where
  owner : (w.accounts accs.nttTransceiverMessage).owner = c.receiveNttProgram direction
  message : TransceiverMessage.decode (w.accounts accs.nttTransceiverMessage).bytes = some m
  address : accs.nttInboxItem = inboxItemAddress rt (c.receiveNttProgram direction) m
  from_chain : m.fromChain = fogoWormholeChainId
  sender : m.sender = (intentSetter rt c.intentPrograms.1).bytes ∨
    m.sender = (intentSetter rt c.intentPrograms.2).bytes

theorem sender_of_checks {rt : RelayerRuntime} {ctx : Context} {accs : ReceiveAccounts}
    {args : ReceiveArgs} {c : PairConfig} {w : RelayerWorld} {sender : Bytes}
    {m : TransceiverMessage} (h : ReceiveChecks rt ctx accs args c w sender)
    (hm : TransceiverMessage.decode (w.accounts accs.nttTransceiverMessage).bytes = some m) :
    m.sender = (intentSetter rt c.intentPrograms.1).bytes ∨
      m.sender = (intentSetter rt c.intentPrograms.2).bytes := by
  have hs := (parseFogoSenderFromVtm_spec h.sender_parsed).2
  have hsender : m.sender = sender := by
    rw [hs]
    obtain ⟨-, -, rfl⟩ := decode_eq_some hm
    rfl
  rw [hsender]
  exact h.sender_allowed.imp Eq.symm Eq.symm

theorem inboxAlreadyReleased_eq_true {w : RelayerWorld} {k : Pubkey} :
    inboxAlreadyReleased w k = true ↔
      ∃ i, InboxItem.tryLoad (w.accounts k).bytes = .ok i ∧ i.releaseStatus = .released := by
  unfold inboxAlreadyReleased
  split
  · rename_i i hi
    simp [hi]
  · rename_i e he
    simp [he]

/-- The skip branch. -/
theorem authenticated_of_skip {rt : RelayerRuntime} {ctx : Context} {accs : ReceiveAccounts}
    {args : ReceiveArgs} {c : PairConfig} {w : RelayerWorld} {sender : Bytes}
    (h : ReceiveChecks rt ctx accs args c w sender)
    (hskip : inboxAlreadyReleased w accs.nttInboxItem = true) :
    (w.accounts accs.nttInboxItem).owner = c.receiveNttProgram args.direction ∧
      ∃ m, Authenticated rt c accs args.direction w m := by
  have hv := h.skip_path hskip
  simp only [validateSkipPathInboxItem, bind_eq_ok, require_eq_ok, exists_const] at hv
  obtain ⟨howner, -, hchain, ⟨k, b⟩, hderive, hitem⟩ := hv
  obtain ⟨m, hm, rfl⟩ :=
    deriveInboxItemPdaFromVtm_spec (parseFogoSenderFromVtm_spec h.sender_parsed).1 hderive
  refine ⟨howner, m, h.vtm_owner, hm, hitem, ?_, sender_of_checks h hm⟩
  obtain ⟨-, -, rfl⟩ := decode_eq_some hm
  show UInt16.ofNat _ = _
  rw [show ofLeBytes (slice _ 8 2) = _ from hchain]
  rfl

/-- The redeem branch: NTT's own checks, read at the pinned slots. -/
theorem authenticated_of_redeem {env : Env} (hl : env.Lawful) {ctx : Context}
    {accs : ReceiveAccounts} {args : ReceiveArgs} {c : PairConfig} {w w' : RelayerWorld}
    {sender : Bytes} {vtm item : Pubkey} {m : TransceiverMessage} {i : InboxItem}
    (h : ReceiveChecks env.runtime ctx accs args c w sender)
    (hr : RedeemSpec env.runtime (env.limiter (c.receiveNttProgram args.direction))
      (c.receiveNttProgram args.direction)
      (forwardMetas (redeemAccs ctx args) (some accs.relayerAuthority)) w.clock w.accounts
      w'.accounts vtm item m i) :
    item = accs.nttInboxItem ∧ Authenticated env.runtime c accs args.direction w m := by
  have hslots := validateNttRedeemReleaseAccounts_spec h.slots
  have hvtm : vtm = accs.nttTransceiverMessage := by
    have := hr.vtm_at
    rw [keyAt_forwardMetas] at this
    exact Option.some.inj (this.symm.trans hslots.vtm_at)
  have hitem : item = accs.nttInboxItem := by
    have := hr.item_at
    rw [keyAt_forwardMetas] at this
    exact Option.some.inj (this.symm.trans hslots.item_at)
  have hpeer : m.fromChain = fogoWormholeChainId := by
    have := hr.peer_at
    rw [keyAt_forwardMetas] at this
    exact fromChain_of_peer hl.address (Option.some.inj (this.symm.trans hslots.peer_at))
  have hm := hr.message
  rw [hvtm] at hm
  exact ⟨hitem, h.vtm_owner, hm, hitem.symm.trans hr.address, hpeer, sender_of_checks h hm⟩

/-! ## The inbox item of a successful receive -/

/-- An account outside the program and its new flow is the same before and after the flow account
is created. -/
theorem sameData_of_create {k j : Pubkey} {w w₀ : RelayerWorld}
    (hc : CreateSpec k programId (.raw []) w w₀) (hj : (w₀.accounts j).owner ≠ programId) :
    SameData w.accounts w₀.accounts j := by
  apply hc.others
  rintro rfl
  exact hj hc.owner_eq

theorem inboxItemAt_create {env : Env} (hl : env.Lawful) {p k j : Pubkey} {w w₀ : RelayerWorld}
    (hp : (env.nttMint p).isSome) (hc : CreateSpec k programId (.raw []) w w₀) :
    inboxItemAt p w₀.accounts j = inboxItemAt p w.accounts j := by
  by_cases hj : j = k
  · have hlaws := hl.nttLaws hp
    have h₀ : (w₀.accounts j).owner ≠ p := by
      rw [hj, hc.owner_eq]
      exact hlaws.ne_programId.symm
    have h : (w.accounts j).owner ≠ p := by
      rw [hj, hc.was_system]
      exact hlaws.ne_system.symm
    simp [inboxItemAt, h₀, h]
  · exact inboxItemAt_of_sameData (hc.others j hj)

/-- When the rate limiter lets a message through. -/
def releaseTime (env : Env) (p : Pubkey) (w : RelayerWorld) (m : TransceiverMessage) : UInt64 :=
  env.limiter p (rateLimitState env.runtime p w.accounts m) w.clock m

/-- What a `receive` from `w` found out about its inbox item: an already released one was taken as
it stood; any other was fresh and came out of NTT released exactly when its time had come. -/
structure ItemTaken (env : Env) (p itemKey : Pubkey) (w w₁ : RelayerWorld) (inbox : InboxItem)
    (m : TransceiverMessage) : Prop where
  item_at : inboxItemAt p w₁.accounts itemKey = some inbox
  branch : (inboxItemAt p w.accounts itemKey = some inbox ∧ inbox.releaseStatus = .released ∧
      ∀ k, ¬ (w₁.accounts k).owner = programId → SameData w.accounts w₁.accounts k) ∨
    ((∀ i, inboxItemAt p w.accounts itemKey = some i → i.releaseStatus = .notApproved) ∧
      inbox.releaseStatus = if w.clock.unixTimestamp < releaseTime env p w m then
        .releaseAfterDelay (releaseTime env p w m) else .released)

theorem rateLimitState_create {env : Env} (hl : env.Lawful) {p : Pubkey} {m : TransceiverMessage}
    {accs : ReceiveAccounts} {direction : Direction} {bump : UInt8} {w w₀ : RelayerWorld}
    (hp : (env.nttMint p).isSome)
    (hflow : env.runtime.findProgramAddress
      (flowSeeds direction accs.pairConfig accs.nttInboxItem) programId = (accs.flow, bump))
    (hc : CreateSpec accs.flow programId (.raw []) w w₀) :
    rateLimitState env.runtime p w₀.accounts m = rateLimitState env.runtime p w.accounts m := by
  apply SameData.bytes
  apply hc.others
  intro heq
  have hfind : (env.runtime.findProgramAddress
      (flowSeeds direction accs.pairConfig accs.nttInboxItem) programId).1 =
      (deriveNttInboxRateLimit env.runtime p m.fromChain).1 := by
    rw [hflow, heq]
  exact (hl.nttLaws hp).ne_programId (hl.address.find_program hfind).symm

theorem itemTaken_of_redeem {env : Env} (hl : env.Lawful) {p itemKey : Pubkey}
    {redeemMetas releaseMetas : List AccountMeta} {w₀ w₁ w₂ : RelayerWorld} {vtm : Pubkey}
    {m : TransceiverMessage} {i inbox : InboxItem} (hp : (env.nttMint p).isSome)
    (hr : RedeemSpec env.runtime (env.limiter p) p redeemMetas w₀.clock w₀.accounts w₁.accounts
      vtm itemKey m i)
    (hitem : keyAt releaseMetas 2 = some itemKey) (hclock : w₁.clock = w₀.clock)
    (hcall : Called env.runtime ⟨p, releaseMetas, nttReleaseInboundUnlockIx ++ [boolByte false]⟩
      w₁ w₂)
    (hload : InboxItem.tryLoad (w₂.accounts itemKey).bytes = .ok inbox) :
    inboxItemAt p w₂.accounts itemKey = some inbox ∧
      inbox.releaseStatus = if w₀.clock.unixTimestamp < releaseTime env p w₀ m then
        .releaseAfterDelay (releaseTime env p w₀ m) else .released := by
  obtain ⟨key, recipient, item, item', hrel⟩ := (hl.nttLaws hp).release hcall.invoked
  obtain rfl : key = itemKey := Option.some.inj (hrel.item_at.symm.trans hitem)
  obtain rfl : item = i := Option.some.inj (hrel.item_before.symm.trans hr.item_after)
  have hafter := hrel.item_after
  have hload' := (inboxItemAt_eq_some.mp hafter).2
  obtain rfl : item' = inbox := by
    rw [hload'] at hload
    exact Except.ok.inj hload
  refine ⟨hafter, ?_⟩
  have hout := hrel.outcome
  rw [hr.status, hclock] at hout
  dsimp only at hout
  unfold releaseTime
  split at hout
  · rename_i hlt
    rw [if_pos hlt, hout.1, hr.status]
  · rename_i hlt
    rw [if_neg hlt, hout.1]

theorem receive_item {env : Env} (hl : env.Lawful) {ctx : Context} {accs : ReceiveAccounts}
    {args : ReceiveArgs} {w w' : RelayerWorld} {c : PairConfig} {mint : Mint} {bump : UInt8}
    {w₀ w₁ w₂ : RelayerWorld} {inbox : InboxItem} {held : TokenAccount}
    (hp : (env.nttMint (c.receiveNttProgram args.direction)).isSome)
    (h : ReceiveSpec env.runtime ctx accs args w w' c mint bump w₀ w₁ w₂ inbox held) :
    ∃ m, Authenticated env.runtime c accs args.direction w m ∧
      ItemTaken env (c.receiveNttProgram args.direction) accs.nttInboxItem w w₁ inbox m := by
  obtain ⟨sender, hchecks⟩ := h.checks
  have hne := (hl.nttLaws hp).ne_programId
  have hvtm : SameData w.accounts w₀.accounts accs.nttTransceiverMessage :=
    sameData_of_create h.created (by rw [hchecks.vtm_owner]; exact hne)
  have hback : ∀ m, Authenticated env.runtime c accs args.direction w₀ m →
      Authenticated env.runtime c accs args.direction w m := by
    intro m hm
    exact ⟨hvtm.1 ▸ hm.owner, hvtm.bytes ▸ hm.message, hm.address, hm.from_chain, hm.sender⟩
  rcases redeemAndRelease_spec h.released with ⟨hskip, hw₁⟩ | ⟨-, wr, hr⟩
  · -- skip: the item is read where it was before the call
    obtain ⟨howner, m, hauth⟩ := authenticated_of_skip hchecks hskip
    obtain ⟨i, hi, hstatus⟩ := inboxAlreadyReleased_eq_true.mp hskip
    have hload := h.swept.loaded
    rw [hw₁] at hload ⊢
    obtain rfl : i = inbox := by
      rw [hi] at hload
      exact Except.ok.inj hload
    have hitem := inboxItemAt_eq_some.mpr ⟨howner, hi⟩
    refine ⟨m, hback m hauth, hitem, .inl ⟨?_, hstatus, ?_⟩⟩
    · rw [← inboxItemAt_create hl hp h.created]
      exact hitem
    · intro k hk
      exact sameData_of_create h.created hk
  · -- redeem: NTT made the item, then released it or left it to wait
    obtain ⟨vtm, item, m, i, hredeem⟩ := (hl.nttLaws hp).redeem hr.redeem.invoked
    obtain ⟨rfl, hauth⟩ := authenticated_of_redeem hl hchecks hredeem
    have hslots := validateNttRedeemReleaseAccounts_spec hchecks.slots
    have hat : keyAt (forwardMetas (releaseAccs ctx args) (some accs.relayerAuthority)) 2 =
        some accs.nttInboxItem := by
      rw [keyAt_forwardMetas]
      exact hslots.released_item_at
    obtain ⟨hitem, hstatus⟩ :=
      itemTaken_of_redeem hl hp hredeem hat hr.redeem.clock_eq hr.release h.swept.loaded
    have htime : releaseTime env (c.receiveNttProgram args.direction) w₀ m =
        releaseTime env (c.receiveNttProgram args.direction) w m := by
      rw [releaseTime, releaseTime, rateLimitState_create hl hp h.flow_address h.created,
        h.created.clock_eq]
    rw [htime, h.created.clock_eq] at hstatus
    refine ⟨m, hback m hauth, hitem, .inr ⟨?_, hstatus⟩⟩
    intro j hj
    apply hredeem.fresh
    rw [inboxItemAt_create hl hp h.created]
    exact hj

/-- The sweep and the receipt leave the item as NTT left it. -/
theorem receive_item_after {env : Env} (hl : env.Lawful) {ctx : Context} {accs : ReceiveAccounts}
    {args : ReceiveArgs} {w w' : RelayerWorld} {c : PairConfig} {mint : Mint} {bump : UInt8}
    {w₀ w₁ w₂ : RelayerWorld} {inbox : InboxItem} {held : TokenAccount}
    (hp : (env.nttMint (c.receiveNttProgram args.direction)).isSome)
    (h : ReceiveSpec env.runtime ctx accs args w w' c mint bump w₀ w₁ w₂ inbox held)
    (hi : inboxItemAt (c.receiveNttProgram args.direction) w₁.accounts accs.nttInboxItem =
      some inbox) :
    inboxItemAt (c.receiveNttProgram args.direction) w'.accounts accs.nttInboxItem =
      some inbox := by
  have hlaws := hl.nttLaws hp
  have howner := (inboxItemAt_eq_some.mp hi).1
  have htransfer := h.swept.transfer.invoked
  rw [hl.token.transferChecked _ _ _ _ _ _ _ _ h.token_program] at htransfer
  have hframe := transferChecked_frame (by rw [howner]; exact hlaws.ne_token) htransfer
  have hflow : accs.nttInboxItem ≠ accs.flow := by
    intro heq
    have hown := (quiet_of_calls hl (h.calls hlaws.ne_programId)).owner_eq h.created.owner_eq
    rw [← heq, hframe, howner] at hown
    exact hlaws.ne_programId hown
  rw [← hi]
  apply inboxItemAt_of_sameData
  rw [h.result]
  exact .of_eq (by simp [World.emit, writeAccount, World.setAccount, hflow, hframe])

/-- Both receive branches authenticate the same message: whichever a successful `receive` took, the
message account belongs to the direction-selected manager, the inbox item is the one of exactly
that message, from FOGO and sent by an intent setter of the pair, and its recipient is the
`user_inbox_authority` account. -/
theorem receive_authenticates {env : Env} (hl : env.Lawful) {w₀ w w' : RelayerWorld}
    {ts : List RelayerTransition} (hg : Genesis env w₀) (hr : RelayerRun env w₀ ts w)
    {ctx : Context} {accs : ReceiveAccounts} {args : ReceiveArgs}
    (h : receive env.runtime ctx accs args w = .ok w') :
    ∃ c m i, pairConfigAt w.accounts accs.pairConfig = some c ∧
      Authenticated env.runtime c accs args.direction w m ∧
      inboxItemAt (c.receiveNttProgram args.direction) w'.accounts accs.nttInboxItem = some i ∧
      i.recipientAddress = accs.userInboxAuthority := by
  obtain ⟨c, mint, bump, u₀, u₁, u₂, inbox, held, hs⟩ := receive_spec h
  have hp := (run_effects hl hg.pinned hr).1.receiveNttProgram hs.config_at args.direction
  obtain ⟨m, hauth, htaken⟩ := receive_item hl hp hs
  exact ⟨c, m, inbox, hs.config_at, hauth, receive_item_after hl hp hs htaken.item_at,
    hs.swept.recipient⟩

/-- On the reference chain the deposit is received through `redeem`. -/
theorem receive_authenticates_deposit :
    ∃ ts w w', RelayerRun referenceEnv (genesis 1000000000) ts w ∧
      ts.map Transition.act = depositActions.take 3 ∧
      receive referenceEnv.runtime receiveContext receiveAccounts receiveArgs w = .ok w' ∧
      ∃ c m i, pairConfigAt w.accounts pairConfigKey = some c ∧
        Authenticated referenceEnv.runtime c receiveAccounts .deposit w m ∧
        inboxItemAt (c.receiveNttProgram .deposit) w'.accounts inboxItemKey = some i ∧
        i.recipientAddress = userInboxAuthority := by
  have hend : Ends (fun w => Ends (fun _ => True) (receiveAction.apply referenceEnv.runtime w))
      (executed 1000000000 (depositActions.take 3)) := by decide +kernel
  obtain ⟨ts, w, hr, hacts, hlast⟩ := run_of_executed (by decide +kernel) hend
  obtain ⟨w', happly, -⟩ := hlast.exists_ok
  exact ⟨ts, w, w', hr, hacts, happly,
    receive_authenticates referenceEnv_lawful (genesis_ok _) hr happly⟩

end FogoYield.Relayer
