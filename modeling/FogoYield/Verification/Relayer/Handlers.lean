import FogoYield.Model.Relayer.Program

/-! # What a successful instruction has checked and done

One contract per handler part: each lists the checks that passed and the intermediate states, so
that later proofs never unfold a handler. -/

namespace FogoYield.Relayer

open FogoYield.Library FogoYield.Solana

/-! ## Calls -/

/-- A successful call: the accounts afterwards are what the callee made of them. -/
structure Called (rt : RelayerRuntime) (ix : Instruction) (w w' : RelayerWorld) : Prop where
  invoked : rt.invoke ix w.clock w.accounts = some w'.accounts
  clock_eq : w'.clock = w.clock
  cpis_eq : w'.cpis = w.cpis ++ [ix]
  events_eq : w'.events = w.events

theorem invokeSigned_called {rt : RelayerRuntime} {ctx : Context} {seeds : List Bytes}
    {ix : Instruction} {w w' : RelayerWorld}
    (h : (invokeSigned rt programId ctx seeds ix w : RelayerResult RelayerWorld) = .ok w') :
    Called rt ix w w' := by
  obtain ⟨-, a, ha, rfl⟩ := invokeSigned_eq_ok.mp h
  exact ⟨ha, rfl, rfl, rfl⟩

theorem invokeRelayerSigned_called {rt : RelayerRuntime} {ctx : Context} {program : Pubkey}
    {disc args : Bytes} {accs : List AccountMeta} {authority : Option Pubkey} {bump : UInt8}
    {w w' : RelayerWorld}
    (h : invokeRelayerSigned rt ctx program disc args accs authority bump w = .ok w') :
    Called rt ⟨program, forwardMetas accs authority, disc ++ args⟩ w w' := by
  simp only [invokeRelayerSigned, bind_eq_ok, require_eq_ok, exists_const] at h
  exact invokeSigned_called h.2

theorem keyAt_forwardMetas (accs : List AccountMeta) (authority : Option Pubkey) (i : ℕ) :
    keyAt (forwardMetas accs authority) i = keyAt accs i := by
  simp only [keyAt, forwardMetas, List.getElem?_map, Option.map_map]
  rfl

theorem approveInstruction_eq (tp source delegate authority : Pubkey) (amount : UInt64) :
    approveInstruction tp source delegate authority amount =
      approveIx tp source delegate authority amount := rfl

/-! ## Receive -/

/-- The checks of the handler of `receive` before it calls NTT. -/
structure ReceiveChecks (rt : RelayerRuntime) (ctx : Context) (accs : ReceiveAccounts)
    (args : ReceiveArgs) (config : PairConfig) (w : RelayerWorld) (sender : Bytes) : Prop where
  min_pos : 0 < args.minSwapOut
  config_address : accs.pairConfig = (rt.findProgramAddress
    [pairConfigSeed, config.baseMint.bytes, config.assetMint.bytes] programId).1
  inbox_authority : accs.userInboxAuthority = (rt.findProgramAddress
    (userInboxSeeds accs.userWallet args.minSwapOut) programId).1
  ntt_program : accs.nttProgram = config.receiveNttProgram args.direction
  vtm_owner : (w.accounts accs.nttTransceiverMessage).owner =
    config.receiveNttProgram args.direction
  mint : accs.recvMint = config.receiveMint args.direction
  sender_parsed : parseFogoSenderFromVtm (w.accounts accs.nttTransceiverMessage).bytes = .ok sender
  sender_allowed : (intentSetter rt config.intentPrograms.1).bytes = sender ∨
    (intentSetter rt config.intentPrograms.2).bytes = sender
  skip_path : inboxAlreadyReleased w accs.nttInboxItem = true →
    validateSkipPathInboxItem rt w (config.receiveNttProgram args.direction) accs.nttInboxItem
      accs.nttTransceiverMessage = .ok ()
  slots : validateNttRedeemReleaseAccounts rt (redeemAccs ctx args) (releaseAccs ctx args)
    (config.receiveNttProgram args.direction) accs.nttTransceiverMessage accs.nttInboxItem
    accs.userInboxAta = .ok ()

theorem receiveChecks_spec {rt : RelayerRuntime} {ctx : Context} {accs : ReceiveAccounts}
    {args : ReceiveArgs} {config : PairConfig} {w : RelayerWorld}
    (h : receiveChecks rt ctx accs args config w = .ok ()) :
    ∃ sender, ReceiveChecks rt ctx accs args config w sender := by
  simp only [receiveChecks, bind_eq_ok, require_eq_ok, exists_const] at h
  obtain ⟨hmin, hcfg, hinbox, hprog, hvtm, hmint, sender, hsender, hallowed, hrest⟩ := h
  split at hrest
  · simp only [bind_eq_ok] at hrest
    obtain ⟨⟨⟩, hskip, -, -, hslots⟩ := hrest
    exact ⟨sender, hmin, hcfg, hinbox, hprog, hvtm, hmint, hsender, hallowed, fun _ => hskip,
      hslots⟩
  · rename_i hnot
    simp only [bind_eq_ok] at hrest
    obtain ⟨-, -, hslots⟩ := hrest
    exact ⟨sender, hmin, hcfg, hinbox, hprog, hvtm, hmint, hsender, hallowed,
      fun hr => absurd hr hnot, hslots⟩

/-- On the redeem branch both NTT calls were made, in order. -/
structure Redeemed (rt : RelayerRuntime) (ctx : Context) (accs : ReceiveAccounts)
    (args : ReceiveArgs) (config : PairConfig) (w w₁ w₂ : RelayerWorld) : Prop where
  redeem : Called rt ⟨config.receiveNttProgram args.direction,
    forwardMetas (redeemAccs ctx args) (some accs.relayerAuthority), nttRedeemIx⟩ w w₁
  release : Called rt ⟨config.receiveNttProgram args.direction,
    forwardMetas (releaseAccs ctx args) (some accs.relayerAuthority),
    nttReleaseInboundUnlockIx ++ [boolByte false]⟩ w₁ w₂

theorem redeemAndRelease_spec {rt : RelayerRuntime} {ctx : Context} {accs : ReceiveAccounts}
    {args : ReceiveArgs} {config : PairConfig} {w w' : RelayerWorld}
    (h : redeemAndRelease rt ctx accs args config w = .ok w') :
    (inboxAlreadyReleased w accs.nttInboxItem = true ∧ w' = w) ∨
      (inboxAlreadyReleased w accs.nttInboxItem = false ∧
        ∃ w₁, Redeemed rt ctx accs args config w w₁ w') := by
  unfold redeemAndRelease at h
  split at h
  · rename_i hr
    exact .inl ⟨hr, (pure_eq_ok.mp h).symm⟩
  · rename_i hr
    simp only [bind_eq_ok] at h
    obtain ⟨w₁, h₁, h₂⟩ := h
    refine .inr ⟨by simpa using hr, w₁, ?_, invokeRelayerSigned_called h₂⟩
    simpa using invokeRelayerSigned_called h₁

/-- The sweep moved exactly the inbox item's amount, which the inbox account held. -/
structure Swept (rt : RelayerRuntime) (accs : ReceiveAccounts) (mint : Mint) (w w' : RelayerWorld)
    (inbox : InboxItem) (held : TokenAccount) : Prop where
  loaded : InboxItem.tryLoad (w.accounts accs.nttInboxItem).bytes = .ok inbox
  recipient : inbox.recipientAddress = accs.userInboxAuthority
  amount_pos : 0 < inbox.amount
  held_at : tokenAt w.accounts accs.userInboxAta = some held
  enough : inbox.amount ≤ held.amount
  transfer : Called rt (transferCheckedIx accs.tokenProgram accs.userInboxAta accs.recvMint
    accs.recvAta accs.userInboxAuthority inbox.amount mint.decimals) w w'

theorem sweepInbox_spec {rt : RelayerRuntime} {ctx : Context} {accs : ReceiveAccounts}
    {args : ReceiveArgs} {mint : Mint} {w w' : RelayerWorld} {amount : UInt64}
    (h : sweepInbox rt ctx accs args mint w = .ok (amount, w')) :
    ∃ inbox held, inbox.amount = amount ∧ Swept rt accs mint w w' inbox held := by
  simp only [sweepInbox, bind_eq_ok, require_eq_ok, loadToken_eq_ok, pure_eq_ok, exists_const] at h
  obtain ⟨inbox, hload, hrec, hpos, held, hheld, hle, w₁, hcall, heq⟩ := h
  obtain ⟨rfl, rfl⟩ := Prod.mk.inj heq
  exact ⟨inbox, held, rfl, hload, hrec, hpos, hheld, hle, invokeSigned_called hcall⟩

/-- A successful `receive`, phase by phase: the flow account is created (`w₀`), NTT is called
(`w₁`), the inbox is swept (`w₂`) and the receipt is written. -/
structure ReceiveSpec (rt : RelayerRuntime) (ctx : Context) (accs : ReceiveAccounts)
    (args : ReceiveArgs) (w w' : RelayerWorld) (config : PairConfig) (mint : Mint) (bump : UInt8)
    (w₀ w₁ w₂ : RelayerWorld) (inbox : InboxItem) (held : TokenAccount) : Prop where
  signer : accs.payer ∈ ctx.signers
  config_at : pairConfigAt w.accounts accs.pairConfig = some config
  mint_at : mintAt w.accounts accs.recvMint = some mint
  token_program : IsTokenProgram accs.tokenProgram
  authority : rt.createProgramAddress ([relayerSeed] ++ [[config.relayerAuthorityBump]]) programId =
    some accs.relayerAuthority
  recv_ata : ∃ t, IsAssociatedToken rt w.accounts accs.recvMint accs.relayerAuthority
    accs.tokenProgram accs.recvAta t
  user_ata : ∃ t, IsAssociatedToken rt w.accounts accs.recvMint accs.userInboxAuthority
    accs.tokenProgram accs.userInboxAta t
  flow_address : rt.findProgramAddress
    (flowSeeds args.direction accs.pairConfig accs.nttInboxItem) programId = (accs.flow, bump)
  created : CreateSpec accs.flow programId (.raw []) w w₀
  checks : ∃ sender, ReceiveChecks rt ctx accs args config w₀ sender
  released : redeemAndRelease rt ctx accs args config w₀ = .ok w₁
  swept : Swept rt accs mint w₁ w₂ inbox held
  result : w' = (writeAccount accs.flow (.flow (receivedFlow accs args bump inbox.amount
    w₂.clock.slot)) w₂).emit (.received accs.flow accs.nttInboxItem accs.userWallet args.direction
      inbox.amount)

theorem receive_spec {rt : RelayerRuntime} {ctx : Context} {accs : ReceiveAccounts}
    {args : ReceiveArgs} {w w' : RelayerWorld} (h : receive rt ctx accs args w = .ok w') :
    ∃ config mint bump w₀ w₁ w₂ inbox held,
      ReceiveSpec rt ctx accs args w w' config mint bump w₀ w₁ w₂ inbox held := by
  simp only [receive, ReceiveAccounts.load, bind_eq_ok, loadSigner_eq_ok, loadAccount_eq_ok,
    loadMint_eq_ok, checkTokenInterface_eq_ok, checkProgram_eq_ok, checkSeeds_eq_ok,
    checkAssociatedToken_eq_ok, findSeeds_eq_ok, pure_eq_ok, exists_const] at h
  obtain ⟨_, ⟨hsig, config, hconfig, mint, hmint, htp, -, hauth, t, ht, u, hu, bump, hflow, w₀,
    hcreate, rfl⟩, ⟨⟩, hchecks, w₁, hrel, ⟨amount, w₂⟩, hsweep, rfl⟩ := h
  obtain ⟨inbox, held, rfl, hswept⟩ := sweepInbox_spec hsweep
  exact ⟨config, mint, bump, w₀, w₁, w₂, inbox, held, hsig, hconfig, hmint, htp, hauth, ⟨t, ht⟩,
    ⟨u, hu⟩, hflow, createAccount_spec hcreate, receiveChecks_spec hchecks, hrel, hswept, rfl⟩

/-! ## Accounts of an open flow -/

/-- The constraints `swap`, `send` and `refund` put on their common accounts. -/
structure FlowLoad (rt : RelayerRuntime) (accs : FlowAccounts) (w : RelayerWorld)
    (loaded : FlowLoaded) : Prop where
  config_at : pairConfigAt w.accounts accs.pairConfig = some loaded.config
  base_mint_at : ∃ m, mintAt w.accounts accs.baseMint = some m
  asset_mint_at : mintAt w.accounts accs.assetMint = some loaded.assetMint
  flow_at : flowAt w.accounts accs.flow = some loaded.flow
  token_program : IsTokenProgram accs.tokenProgram
  config_address : rt.createProgramAddress
    ([pairConfigSeed, accs.baseMint.bytes, accs.assetMint.bytes] ++ [[loaded.config.bump]])
    programId = some accs.pairConfig
  base_mint : loaded.config.baseMint = accs.baseMint
  asset_mint : loaded.config.assetMint = accs.assetMint
  authority : rt.createProgramAddress
    ([relayerSeed] ++ [[loaded.config.relayerAuthorityBump]]) programId = some accs.relayerAuthority
  base_ata : ∃ t, IsAssociatedToken rt w.accounts accs.baseMint accs.relayerAuthority
    accs.tokenProgram accs.baseAta t
  asset_ata : ∃ t, IsAssociatedToken rt w.accounts accs.assetMint accs.relayerAuthority
    accs.tokenProgram accs.assetAta t
  flow_address : rt.createProgramAddress (flowSeeds loaded.flow.direction accs.pairConfig
    accs.nttInboxItem ++ [[loaded.flow.bump]]) programId = some accs.flow

theorem flowAccounts_load_eq_ok {rt : RelayerRuntime} {accs : FlowAccounts} {w : RelayerWorld}
    {loaded : FlowLoaded} : accs.load rt w = .ok loaded ↔ FlowLoad rt accs w loaded := by
  simp only [FlowAccounts.load, bind_eq_ok, loadAccount_eq_ok, loadMint_eq_ok,
    checkTokenInterface_eq_ok, checkSeeds_eq_ok, constrain_eq_ok, checkAssociatedToken_eq_ok,
    pure_eq_ok, exists_const]
  constructor
  · rintro ⟨config, hc, m, hm, n, hn, flow, hf, htp, hca, hb, ha, hauth, t, ht, u, hu, hfa, rfl⟩
    exact ⟨hc, ⟨m, hm⟩, hn, hf, htp, hca, hb, ha, hauth, ⟨t, ht⟩, ⟨u, hu⟩, hfa⟩
  · rintro ⟨hc, ⟨m, hm⟩, hn, hf, htp, hca, hb, ha, hauth, ⟨t, ht⟩, ⟨u, hu⟩, hfa⟩
    exact ⟨_, hc, m, hm, _, hn, _, hf, htp, hca, hb, ha, hauth, t, ht, u, hu, hfa, rfl⟩

/-! ## Swap -/

/-- What the untampered check of an operating account leaves. -/
structure Untampered (t : TokenAccount) (owner : Pubkey) : Prop where
  owner : t.owner = owner
  delegate : t.delegate = none
  delegatedAmount : t.delegatedAmount = 0
  closeAuthority : t.closeAuthority = none

theorem assertAtaUntampered_eq_ok {t : TokenAccount} {owner : Pubkey} {u : Unit} :
    assertAtaUntampered t owner = .ok u ↔ Untampered t owner := by
  simp only [assertAtaUntampered, bind_eq_ok, require_eq_ok, exists_const]
  constructor
  · rintro ⟨howner, hdelegate, hamount, hclose⟩
    exact ⟨howner, hdelegate, hamount, hclose⟩
  · intro h
    exact ⟨h.owner, h.delegate, h.delegatedAmount, h.closeAuthority⟩

/-- The calls that clear the stale delegates and approve the route's own. -/
structure DelegatesPrepared (rt : RelayerRuntime) (accs : SwapAccounts) (loaded : FlowLoaded)
    (swapIn : UInt64) (w w₁ w₂ w₃ : RelayerWorld) : Prop where
  revoke_base : Called rt (revokeIx accs.tokenProgram accs.baseAta accs.relayerAuthority) w w₁
  revoke_asset : Called rt (revokeIx accs.tokenProgram accs.assetAta accs.relayerAuthority) w₁ w₂
  approve : w₃ = w₂ ∨ Called rt (approveIx accs.tokenProgram
    (inOut loaded.flow.direction accs.baseAta accs.assetAta).1 accs.swapDelegate
    accs.relayerAuthority swapIn) w₂ w₃

theorem prepareDelegates_spec {rt : RelayerRuntime} {ctx : Context} {accs : SwapAccounts}
    {loaded : FlowLoaded} {swapIn : UInt64} {w w' : RelayerWorld}
    (h : prepareDelegates rt ctx accs loaded swapIn w = .ok w') :
    ∃ w₁ w₂, DelegatesPrepared rt accs loaded swapIn w w₁ w₂ w' := by
  simp only [prepareDelegates, bind_eq_ok] at h
  obtain ⟨w₁, h₁, w₂, h₂, h₃⟩ := h
  refine ⟨w₁, w₂, invokeSigned_called h₁, invokeSigned_called h₂, ?_⟩
  split at h₃
  · exact .inr (invokeSigned_called h₃)
  · exact .inl (pure_eq_ok.mp h₃).symm

/-- The router's instruction. -/
def routerIx (ctx : Context) (accs : SwapAccounts) (swapIxData : Bytes) : Instruction :=
  ⟨accs.swapProgram, forwardMetas ctx.remaining (some accs.relayerAuthority), swapIxData⟩

/-- What the checks behind the router leave of the authority's own account. -/
structure AuthorityKept (authority : Pubkey) (w w' : RelayerWorld) : Prop where
  lamports : (w.accounts authority).lamports ≤ (w'.accounts authority).lamports
  owner : (w'.accounts authority).owner = (w.accounts authority).owner
  data : (w'.accounts authority).data.isEmpty = true

theorem callRouter_spec {rt : RelayerRuntime} {ctx : Context} {accs : SwapAccounts}
    {loaded : FlowLoaded} {swapIxData : Bytes} {w w' : RelayerWorld}
    (h : callRouter rt ctx accs loaded swapIxData w = .ok w') :
    Called rt (routerIx ctx accs swapIxData) w w' ∧
      AuthorityKept accs.relayerAuthority w w' := by
  simp only [callRouter, bind_eq_ok, require_eq_ok, pure_eq_ok, exists_const] at h
  obtain ⟨_, hcall, hlamports, howner, hdata, rfl⟩ := h
  exact ⟨invokeSigned_called hcall, hlamports, howner, hdata⟩

/-- The measured part of a swap: balances before (`base`, `asset`), the delegates prepared
(`w₁` to `w₃`), the router called, balances after. -/
structure MeasuredSwap (rt : RelayerRuntime) (ctx : Context) (accs : SwapAccounts)
    (loaded : FlowLoaded) (swapIn : UInt64) (swapIxData : Bytes) (w w' : RelayerWorld)
    (outReceived : UInt64) (base asset base' asset' : TokenAccount) (w₁ w₂ w₃ : RelayerWorld) :
    Prop where
  base_before : tokenAt w.accounts accs.baseAta = some base
  asset_before : tokenAt w.accounts accs.assetAta = some asset
  prepared : DelegatesPrepared rt accs loaded swapIn w w₁ w₂ w₃
  router : Called rt (routerIx ctx accs swapIxData) w₃ w'
  lamports : (w₃.accounts accs.relayerAuthority).lamports ≤
    (w'.accounts accs.relayerAuthority).lamports
  base_after : tokenAt w'.accounts accs.baseAta = some base'
  asset_after : tokenAt w'.accounts accs.assetAta = some asset'
  input : (inOut loaded.flow.direction base'.amount asset'.amount).1.toNat + swapIn.toNat =
    (inOut loaded.flow.direction base.amount asset.amount).1.toNat
  output : (inOut loaded.flow.direction base.amount asset.amount).2.toNat + outReceived.toNat =
    (inOut loaded.flow.direction base'.amount asset'.amount).2.toNat
  floor : loaded.flow.minSwapOut ≤ outReceived
  base_untampered : Untampered base' accs.relayerAuthority
  asset_untampered : Untampered asset' accs.relayerAuthority

theorem checkedSub_eq_some {x y z : UInt64} :
    checkedSub x y = some z ↔ y.toNat + z.toNat = x.toNat := by
  unfold checkedSub
  split
  · rename_i hle
    have hsub := UInt64.toNat_sub_of_le x y hle
    have hle' := UInt64.le_iff_toNat_le.mp hle
    constructor
    · intro h
      obtain rfl := Option.some.inj h
      omega
    · intro h
      rw [Option.some.injEq, ← UInt64.toNat_inj, hsub]
      omega
  · rename_i hle
    rw [UInt64.le_iff_toNat_le] at hle
    simp only [reduceCtorEq, false_iff]
    omega

/-- The measured part, and the checks on the authority's account across the router. -/
theorem measuredSwap_kept {rt : RelayerRuntime} {ctx : Context} {accs : SwapAccounts}
    {loaded : FlowLoaded} {swapIn outReceived : UInt64} {swapIxData : Bytes} {w w' : RelayerWorld}
    (h : measuredSwap rt ctx accs loaded swapIn swapIxData w = .ok (outReceived, w')) :
    ∃ base asset base' asset' w₁ w₂ w₃, MeasuredSwap rt ctx accs loaded swapIn swapIxData w w'
      outReceived base asset base' asset' w₁ w₂ w₃ ∧
      AuthorityKept accs.relayerAuthority w₃ w' := by
  simp only [measuredSwap, bind_eq_ok, loadToken_eq_ok, require_eq_ok, pure_eq_ok,
    liftOption_eq_ok, checkedSub_eq_some, assertAtaUntampered_eq_ok, exists_const] at h
  obtain ⟨base, hbase, asset, hasset, -, w₃, hprep, wr, hrouter, base', hbase', asset', hasset',
    consumed, hin, out, hout, rfl, hfloor, hub, hua, heq⟩ := h
  obtain ⟨rfl, rfl⟩ := Prod.mk.inj heq
  obtain ⟨w₁, w₂, hprep⟩ := prepareDelegates_spec hprep
  obtain ⟨hcall, hkept⟩ := callRouter_spec hrouter
  exact ⟨base, asset, base', asset', w₁, w₂, w₃, ⟨hbase, hasset, hprep, hcall, hkept.lamports,
    hbase', hasset', hin, hout, hfloor, hub, hua⟩, hkept⟩

theorem measuredSwap_spec {rt : RelayerRuntime} {ctx : Context} {accs : SwapAccounts}
    {loaded : FlowLoaded} {swapIn outReceived : UInt64} {swapIxData : Bytes} {w w' : RelayerWorld}
    (h : measuredSwap rt ctx accs loaded swapIn swapIxData w = .ok (outReceived, w')) :
    ∃ base asset base' asset' w₁ w₂ w₃, MeasuredSwap rt ctx accs loaded swapIn swapIxData w w'
      outReceived base asset base' asset' w₁ w₂ w₃ := by
  obtain ⟨base, asset, base', asset', w₁, w₂, w₃, hm, -⟩ := measuredSwap_kept h
  exact ⟨base, asset, base', asset', w₁, w₂, w₃, hm⟩

/-- A skim: nothing for a zero fee, otherwise a checked transfer into the vault. -/
def Skimmed (rt : RelayerRuntime) (accs : SwapAccounts) (loaded : FlowLoaded) (fee : UInt64)
    (w w' : RelayerWorld) : Prop :=
  (fee = 0 ∧ w' = w) ∨ Called rt (transferCheckedIx accs.tokenProgram accs.assetAta accs.assetMint
    accs.feeVault accs.relayerAuthority fee loaded.assetMint.decimals) w w'

theorem skimFee_spec {rt : RelayerRuntime} {ctx : Context} {accs : SwapAccounts}
    {loaded : FlowLoaded} {fee : UInt64} {w w' : RelayerWorld}
    (h : skimFee rt ctx accs loaded fee w = .ok w') : Skimmed rt accs loaded fee w w' := by
  unfold skimFee relayerSignedTransferChecked at h
  split at h
  · rename_i hz
    exact .inl ⟨hz, (Except.ok.inj h).symm⟩
  · exact .inr (invokeSigned_called h)

/-- The arithmetic of a fee, in numbers. -/
theorem applyFeeBps_spec {gross net fee : UInt64} {bps : UInt16}
    (h : applyFeeBps gross bps = .ok (net, fee)) :
    fee.toNat = gross.toNat * bps.toNat / 10000 ∧ net.toNat + fee.toNat = gross.toNat ∧
      0 < net := by
  simp only [applyFeeBps, bind_eq_ok, require_eq_ok, liftOption_eq_ok, checkedSub_eq_some,
    pure_eq_ok, exists_const] at h
  obtain ⟨-, hfee, n, hsub, hpos, heq⟩ := h
  obtain ⟨rfl, rfl⟩ := Prod.mk.inj heq
  have hnat : (UInt64.ofNat (gross.toNat * bps.toNat / 10000)).toNat =
      gross.toNat * bps.toNat / 10000 := by
    rw [UInt64.toNat_ofNat', Nat.mod_eq_of_lt hfee]
  exact ⟨hnat, by omega, hpos⟩

/-- The input side of a swap: a deposit swaps all of the flow's amount, a withdraw what its fee
leaves. -/
structure InputSkimmed (rt : RelayerRuntime) (accs : SwapAccounts) (loaded : FlowLoaded)
    (swapIn feeBefore : UInt64) (w w' : RelayerWorld) : Prop where
  split : swapIn.toNat + feeBefore.toNat = loaded.flow.amount.toNat
  fee : match loaded.flow.direction with
    | .deposit => feeBefore = 0 ∧ w' = w
    | .withdraw => feeBefore.toNat =
        loaded.flow.amount.toNat * loaded.config.withdrawFeeBps.toNat / 10000 ∧
      Skimmed rt accs loaded feeBefore w w'

theorem skimInput_spec {rt : RelayerRuntime} {ctx : Context} {accs : SwapAccounts}
    {loaded : FlowLoaded} {swapIn feeBefore : UInt64} {w w' : RelayerWorld}
    (h : skimInput rt ctx accs loaded w = .ok (swapIn, feeBefore, w')) :
    InputSkimmed rt accs loaded swapIn feeBefore w w' := by
  unfold skimInput at h
  cases hd : loaded.flow.direction with
  | deposit =>
      simp only [hd, pure_eq_ok, Prod.mk.injEq] at h
      obtain ⟨rfl, rfl, rfl⟩ := h
      exact ⟨by simp, by simp [hd]⟩
  | withdraw =>
      simp only [hd, bind_eq_ok, require_eq_ok, pure_eq_ok, Prod.mk.injEq, exists_const] at h
      obtain ⟨⟨net, fee⟩, hfee, -, w₁, hskim, rfl, rfl, rfl⟩ := h
      obtain ⟨hval, hsum, -⟩ := applyFeeBps_spec hfee
      exact ⟨hsum, by simpa only [hd] using ⟨hval, skimFee_spec hskim⟩⟩

/-- The output side: a deposit pays its fee out of the output, a withdraw keeps all of it. -/
structure OutputSkimmed (rt : RelayerRuntime) (accs : SwapAccounts) (loaded : FlowLoaded)
    (outReceived feeBefore netOut fee : UInt64) (w w' : RelayerWorld) : Prop where
  outcome : match loaded.flow.direction with
    | .deposit => fee.toNat = outReceived.toNat * loaded.config.depositFeeBps.toNat / 10000 ∧
      netOut.toNat + fee.toNat = outReceived.toNat ∧ 0 < netOut ∧
      Skimmed rt accs loaded fee w w'
    | .withdraw => netOut = outReceived ∧ fee = feeBefore ∧ w' = w

theorem skimOutput_spec {rt : RelayerRuntime} {ctx : Context} {accs : SwapAccounts}
    {loaded : FlowLoaded} {outReceived feeBefore netOut fee : UInt64} {w w' : RelayerWorld}
    (h : skimOutput rt ctx accs loaded outReceived feeBefore w = .ok (netOut, fee, w')) :
    OutputSkimmed rt accs loaded outReceived feeBefore netOut fee w w' := by
  unfold skimOutput at h
  cases hd : loaded.flow.direction with
  | deposit =>
      simp only [hd, bind_eq_ok, pure_eq_ok, Prod.mk.injEq] at h
      obtain ⟨⟨net, f⟩, hfee, w₁, hskim, rfl, rfl, rfl⟩ := h
      obtain ⟨hval, hsum, hpos⟩ := applyFeeBps_spec hfee
      exact ⟨by simpa only [hd] using ⟨hval, hsum, hpos, skimFee_spec hskim⟩⟩
  | withdraw =>
      simp only [hd, pure_eq_ok, Prod.mk.injEq] at h
      obtain ⟨rfl, rfl, rfl⟩ := h
      exact ⟨by simp [hd]⟩

/-- A successful `swap`: the input fee is skimmed (`w₁`), the route runs (`w₂`), the output fee
is skimmed (`w₃`) and the flow is written. -/
structure SwapSpec (rt : RelayerRuntime) (ctx : Context) (accs : SwapAccounts) (data : Bytes)
    (w w' : RelayerWorld) (loaded : FlowLoaded) (swapIn feeBefore out netOut fee : UInt64)
    (w₁ w₂ w₃ : RelayerWorld) : Prop where
  load : FlowLoad rt accs.toFlowAccounts w loaded
  vault_pinned : loaded.config.feeVault = accs.feeVault
  vault : ∃ t, tokenAt w.accounts accs.feeVault = some t ∧
    (w.accounts accs.feeVault).owner = accs.tokenProgram ∧ t.mint = accs.assetMint
  status : loaded.flow.status = .received
  router_ne : accs.swapProgram ≠ programId
  allowed : ∀ acc ∈ ctx.remaining, swapAccountAllowed accs w acc.pubkey = true
  amount_pos : 0 < loaded.flow.amount
  input : InputSkimmed rt accs loaded swapIn feeBefore w w₁
  measured : ∃ base asset base' asset' v₁ v₂ v₃, MeasuredSwap rt ctx accs loaded swapIn data w₁ w₂
    out base asset base' asset' v₁ v₂ v₃
  output : OutputSkimmed rt accs loaded out feeBefore netOut fee w₂ w₃
  result : w' = (writeAccount accs.flow (.flow { loaded.flow with
    amount := netOut, status := .swapped }) w₃).emit (.swapped accs.flow loaded.flow.direction
      loaded.flow.amount fee netOut loaded.flow.minSwapOut accs.swapProgram)

/-- A successful `swap`, with its measured part as it ran. -/
theorem swap_measured {rt : RelayerRuntime} {ctx : Context} {accs : SwapAccounts} {data : Bytes}
    {w w' : RelayerWorld} (h : swap rt ctx accs data w = .ok w') :
    ∃ loaded swapIn feeBefore out netOut fee w₁ w₂ w₃,
      SwapSpec rt ctx accs data w w' loaded swapIn feeBefore out netOut fee w₁ w₂ w₃ ∧
      measuredSwap rt ctx accs loaded swapIn data w₁ = .ok (out, w₂) := by
  simp only [swap, SwapAccounts.load, bind_eq_ok, flowAccounts_load_eq_ok, constrain_eq_ok,
    checkTokenMint_eq_ok, require_eq_ok, pure_eq_ok, exists_const] at h
  obtain ⟨loaded, ⟨_, hload, hvault, t, ht, rfl⟩, hstatus, hne, hallowed, hpos,
    ⟨swapIn, feeBefore, w₁⟩, hin, ⟨out, w₂⟩, hmeas, ⟨netOut, fee, w₃⟩, hout, rfl⟩ := h
  exact ⟨_, swapIn, feeBefore, out, netOut, fee, w₁, w₂, w₃, ⟨hload, hvault, ⟨t, ht⟩, hstatus,
    hne, hallowed, hpos, skimInput_spec hin, measuredSwap_spec hmeas, skimOutput_spec hout, rfl⟩,
    hmeas⟩

theorem swap_spec {rt : RelayerRuntime} {ctx : Context} {accs : SwapAccounts} {data : Bytes}
    {w w' : RelayerWorld} (h : swap rt ctx accs data w = .ok w') :
    ∃ loaded swapIn feeBefore out netOut fee w₁ w₂ w₃,
      SwapSpec rt ctx accs data w w' loaded swapIn feeBefore out netOut fee w₁ w₂ w₃ := by
  obtain ⟨loaded, swapIn, feeBefore, out, netOut, fee, w₁, w₂, w₃, hs, -⟩ := swap_measured h
  exact ⟨loaded, swapIn, feeBefore, out, netOut, fee, w₁, w₂, w₃, hs⟩

/-! ## Send and refund -/

/-- The three calls that bridge a flow's amount out of `fromAta`. -/
structure BridgedOut (rt : RelayerRuntime) (ctx : Context) (accs : OutboundAccounts)
    (loaded : FlowLoaded) (nttProgram fromAta : Pubkey) (count : UInt8)
    (w w₁ w₂ w₃ : RelayerWorld) : Prop where
  approve : Called rt (approveIx accs.tokenProgram fromAta
    (deriveSessionAuthority rt nttProgram accs.relayerAuthority loaded.flow.transferArgs).1
    accs.relayerAuthority loaded.flow.amount) w w₁
  lock : Called rt ⟨nttProgram, forwardMetas (ctx.remaining.take count.toNat)
    (some accs.relayerAuthority), nttTransferLockIx ++ loaded.flow.transferArgs.serialize⟩ w₁ w₂
  publish : Called rt ⟨nttProgram, forwardMetas (ctx.remaining.drop count.toNat) none,
    nttReleaseWormholeOutboundIx ++ [boolByte false]⟩ w₂ w₃

theorem bridgeOut_spec {rt : RelayerRuntime} {ctx : Context} {accs : OutboundAccounts}
    {loaded : FlowLoaded} {nttProgram fromAta : Pubkey} {count : UInt8} {w w' : RelayerWorld}
    (h : bridgeOut rt ctx accs loaded nttProgram fromAta count w = .ok w') :
    ∃ w₁ w₂, BridgedOut rt ctx accs loaded nttProgram fromAta count w w₁ w₂ w' := by
  simp only [bridgeOut, approveNttSessionAuthority, nttLockAndPublish, bind_eq_ok, require_eq_ok,
    exists_const] at h
  obtain ⟨w₁, ⟨-, happrove⟩, -, w₂, hlock, hpublish⟩ := h
  exact ⟨w₁, w₂, invokeSigned_called happrove, invokeRelayerSigned_called hlock,
    invokeRelayerSigned_called hpublish⟩

/-- What `send` and `refund` share: the flow loads with a positive amount, its tokens are bridged
out of `fromAta` through `nttProgram`, `event` is emitted and the flow is closed. -/
structure OutboundSpec (rt : RelayerRuntime) (ctx : Context) (accs : OutboundAccounts)
    (count : UInt8) (w w' : RelayerWorld) (loaded : FlowLoaded) (nttProgram fromAta : Pubkey)
    (event : Event) (w₁ w₂ w₃ : RelayerWorld) : Prop where
  load : FlowLoad rt accs.toFlowAccounts w loaded
  rent : accs.rentDestination = loaded.flow.payer
  amount_pos : 0 < loaded.flow.amount
  bridged : BridgedOut rt ctx accs loaded nttProgram fromAta count w w₁ w₂ w₃
  result : w' = closeAccount accs.flow accs.rentDestination (w₃.emit event)

theorem send_spec {rt : RelayerRuntime} {ctx : Context} {accs : OutboundAccounts} {count : UInt8}
    {w w' : RelayerWorld} (h : send rt ctx accs count w = .ok w') :
    ∃ loaded w₁ w₂ w₃, loaded.flow.status = .swapped ∧
      OutboundSpec rt ctx accs count w w' loaded
        (loaded.config.sendNttProgram loaded.flow.direction)
        (inOut loaded.flow.direction accs.baseAta accs.assetAta).2
        (.sent accs.flow accs.nttInboxItem loaded.flow.recipient loaded.flow.direction
          loaded.flow.amount) w₁ w₂ w₃ := by
  simp only [send, OutboundAccounts.load, bind_eq_ok, loadSigner_eq_ok, flowAccounts_load_eq_ok,
    constrain_eq_ok, require_eq_ok, pure_eq_ok, exists_const] at h
  obtain ⟨loaded, ⟨-, _, hload, hrent, rfl⟩, hstatus, hpos, w₃, hbridge, rfl⟩ := h
  obtain ⟨w₁, w₂, hbridge⟩ := bridgeOut_spec hbridge
  exact ⟨_, w₁, w₂, w₃, hstatus, hload, hrent, hpos, hbridge, rfl⟩

theorem checkedAdd_eq_some {x y z : UInt64} :
    checkedAdd x y = some z ↔ x.toNat + y.toNat = z.toNat := by
  unfold checkedAdd
  split
  · rename_i hlt
    have hadd : (x + y).toNat = x.toNat + y.toNat := by
      rw [UInt64.toNat_add, Nat.mod_eq_of_lt hlt]
    constructor
    · intro h
      obtain rfl := Option.some.inj h
      exact hadd.symm
    · intro h
      rw [Option.some.injEq, ← UInt64.toNat_inj, hadd, h]
  · have := z.toNat_lt
    simp only [reduceCtorEq, false_iff]
    omega

theorem refund_spec {rt : RelayerRuntime} {ctx : Context} {accs : OutboundAccounts}
    {count : UInt8} {w w' : RelayerWorld} (h : refund rt ctx accs count w = .ok w') :
    ∃ loaded w₁ w₂ w₃, loaded.flow.status = .received ∧
      loaded.flow.receivedSlot.toNat + refundTimeoutSlots.toNat ≤ w.clock.slot.toNat ∧
      OutboundSpec rt ctx accs count w w' loaded
        (loaded.config.receiveNttProgram loaded.flow.direction)
        (inOut loaded.flow.direction accs.baseAta accs.assetAta).1
        (.refunded accs.flow accs.nttInboxItem loaded.flow.recipient loaded.flow.direction
          loaded.flow.amount) w₁ w₂ w₃ := by
  simp only [refund, OutboundAccounts.load, bind_eq_ok, loadSigner_eq_ok, flowAccounts_load_eq_ok,
    constrain_eq_ok, require_eq_ok, liftOption_eq_ok, checkedAdd_eq_some, pure_eq_ok,
    exists_const] at h
  obtain ⟨loaded, ⟨-, _, hload, hrent, rfl⟩, hstatus, ready, hready, hslot, hpos, w₃, hbridge,
    rfl⟩ := h
  obtain ⟨w₁, w₂, hbridge⟩ := bridgeOut_spec hbridge
  rw [UInt64.le_iff_toNat_le, ← hready] at hslot
  exact ⟨_, w₁, w₂, w₃, hstatus, hslot, hload, hrent, hpos, hbridge, rfl⟩

/-! ## Governance -/

/-- A successful `bootstrap`. -/
structure BootstrapSpec (rt : RelayerRuntime) (ctx : Context) (accs : BootstrapAccounts)
    (w w' : RelayerWorld) (bump : UInt8) (w₀ : RelayerWorld) : Prop where
  signer : accs.admin ∈ ctx.signers
  address : rt.findProgramAddress [globalConfigSeed] programId = (accs.globalConfig, bump)
  created : CreateSpec accs.globalConfig programId (.raw []) w w₀
  result : w' = writeAccount accs.globalConfig (.globalConfig ⟨accs.admin, bump, none⟩) w₀

theorem bootstrap_spec {rt : RelayerRuntime} {ctx : Context} {accs : BootstrapAccounts}
    {w w' : RelayerWorld} (h : bootstrap rt ctx accs w = .ok w') :
    ∃ bump w₀, BootstrapSpec rt ctx accs w w' bump w₀ := by
  simp only [bootstrap, bind_eq_ok, loadSigner_eq_ok, checkProgram_eq_ok, findSeeds_eq_ok,
    pure_eq_ok, exists_const] at h
  obtain ⟨hsig, -, bump, haddr, w₀, hcreate, rfl⟩ := h
  exact ⟨bump, w₀, hsig, haddr, createAccount_spec hcreate, rfl⟩

/-- A successful `initialize`: the config account is created (`w₀`), then the relayer's token
accounts for base (`w₁`) and asset (`w₂`). -/
structure InitializeSpec (rt : RelayerRuntime) (ctx : Context) (accs : InitializeAccounts)
    (args : InitializeArgs) (w w' : RelayerWorld) (g : GlobalConfig)
    (relayerBump bump : UInt8) (w₀ w₁ w₂ : RelayerWorld) : Prop where
  signer : accs.authority ∈ ctx.signers
  global_at : globalConfigAt w.accounts accs.globalConfig = some g
  global_address : rt.createProgramAddress ([globalConfigSeed] ++ [[g.bump]]) programId =
    some accs.globalConfig
  admin : g.admin = accs.authority
  token_program : IsTokenProgram accs.tokenProgram
  address : rt.findProgramAddress
    [pairConfigSeed, accs.baseMint.bytes, accs.assetMint.bytes] programId = (accs.pairConfig, bump)
  created : CreateSpec accs.pairConfig programId (.raw []) w w₀
  authority : rt.findProgramAddress [relayerSeed] programId = (accs.relayerAuthority, relayerBump)
  base_address : rt.ata accs.relayerAuthority accs.baseMint accs.tokenProgram = accs.baseAta
  base_mint : ∃ m, mintAt w₀.accounts accs.baseMint = some m
  base_program : (w₀.accounts accs.baseMint).owner = accs.tokenProgram
  base_created : CreateSpec accs.baseAta accs.tokenProgram
    (.token ⟨accs.baseMint, accs.relayerAuthority, 0, none, 0, none⟩) w₀ w₁
  asset_address : rt.ata accs.relayerAuthority accs.assetMint accs.tokenProgram = accs.assetAta
  asset_mint : ∃ m, mintAt w₁.accounts accs.assetMint = some m
  asset_program : (w₁.accounts accs.assetMint).owner = accs.tokenProgram
  asset_created : CreateSpec accs.assetAta accs.tokenProgram
    (.token ⟨accs.assetMint, accs.relayerAuthority, 0, none, 0, none⟩) w₁ w₂
  vault : ∃ t, tokenAt w₂.accounts accs.feeVault = some t ∧
    (w₂.accounts accs.feeVault).owner = accs.tokenProgram ∧ t.mint = accs.assetMint
  vault_ne : accs.feeVault ≠ accs.assetAta
  valid : (initialConfig accs args relayerBump bump).validate = .ok ()
  result : w' = writeAccount accs.pairConfig
    (.pairConfig (initialConfig accs args relayerBump bump)) w₂

theorem initializePair_spec {rt : RelayerRuntime} {ctx : Context} {accs : InitializeAccounts}
    {args : InitializeArgs} {w w' : RelayerWorld}
    (h : initializePair rt ctx accs args w = .ok w') :
    ∃ g relayerBump bump w₀ w₁ w₂,
      InitializeSpec rt ctx accs args w w' g relayerBump bump w₀ w₁ w₂ := by
  simp only [initializePair, bind_eq_ok, loadSigner_eq_ok, loadAccount_eq_ok, loadMint_eq_ok,
    loadToken_eq_ok, checkTokenInterface_eq_ok, checkProgram_eq_ok, checkSeeds_eq_ok,
    findSeeds_eq_ok, checkTokenMint_eq_ok, require_eq_ok, pure_eq_ok, exists_const] at h
  obtain ⟨hsig, g, hg, -, -, -, -, -, -, htp, -, -, hgaddr, hadmin, bump, haddr, w₀, hcreate,
    relayerBump, hauth, w₁, hbase, w₂, hasset, t, ht, hne, ⟨⟩, hvalid, rfl⟩ := h
  obtain ⟨hba, hbm, hbp, hbc⟩ := initAssociatedToken_spec hbase
  obtain ⟨haa, ham, hap, hac⟩ := initAssociatedToken_spec hasset
  exact ⟨g, relayerBump, bump, w₀, w₁, w₂, hsig, hg, hgaddr, hadmin, htp, haddr,
    createAccount_spec hcreate, hauth, hba, hbm, hbp, hbc, haa, ham, hap, hac, ⟨t, ht⟩, hne, hvalid,
    rfl⟩

/-- A successful `configure`. -/
structure ConfigureSpec (rt : RelayerRuntime) (ctx : Context) (accs : ConfigureAccounts)
    (args : ConfigureArgs) (w w' : RelayerWorld) (c c' : PairConfig) : Prop where
  signer : accs.authority ∈ ctx.signers
  config_at : pairConfigAt w.accounts accs.pairConfig = some c
  token_program : IsTokenProgram accs.tokenProgram
  by_authority : c.authority = accs.authority
  asset_mint : c.assetMint = accs.assetMint
  authority : rt.createProgramAddress ([relayerSeed] ++ [[c.relayerAuthorityBump]]) programId =
    some accs.relayerAuthority
  asset_ata : ∃ t, IsAssociatedToken rt w.accounts accs.assetMint accs.relayerAuthority
    accs.tokenProgram accs.assetAta t
  vault : ∀ v ∈ accs.feeVault, ∃ t, tokenAt w.accounts v = some t ∧
    (w.accounts v).owner = accs.tokenProgram ∧ t.mint = accs.assetMint
  handled : c.configure accs.assetAta accs.feeVault args w.clock.slot = .ok c'
  result : w' = writeAccount accs.pairConfig (.pairConfig c') w

theorem checkFeeVault_spec {w : RelayerWorld} {assetMint tokenProgram : Pubkey}
    {feeVault : Option Pubkey} {u : Unit}
    (h : checkFeeVault w assetMint tokenProgram feeVault = .ok u) :
    ∀ v ∈ feeVault, ∃ t, tokenAt w.accounts v = some t ∧
      (w.accounts v).owner = tokenProgram ∧ t.mint = assetMint := by
  cases feeVault with
  | none => simp
  | some vault =>
      simp only [checkFeeVault, bind_eq_ok, checkTokenMint_eq_ok, pure_eq_ok] at h
      obtain ⟨t, ht, -⟩ := h
      intro v hv
      obtain rfl := Option.mem_some.mp hv
      exact ⟨t, ht⟩

theorem configure_spec {rt : RelayerRuntime} {ctx : Context} {accs : ConfigureAccounts}
    {args : ConfigureArgs} {w w' : RelayerWorld} (h : configure rt ctx accs args w = .ok w') :
    ∃ c c', ConfigureSpec rt ctx accs args w w' c c' := by
  simp only [configure, bind_eq_ok, loadSigner_eq_ok, loadAccount_eq_ok, loadMint_eq_ok,
    checkTokenInterface_eq_ok, checkSeeds_eq_ok, require_eq_ok, constrain_eq_ok,
    checkAssociatedToken_eq_ok, pure_eq_ok, exists_const] at h
  obtain ⟨hsig, c, hc, -, -, htp, -, hby, hasset, hauth, t, ht, ⟨⟩, hvault, c', hhandled, rfl⟩ := h
  exact ⟨c, c', hsig, hc, htp, hby, hasset, hauth, ⟨t, ht⟩, checkFeeVault_spec hvault, hhandled,
    rfl⟩

/-- A successful `accept_authority`. -/
structure AcceptAuthoritySpec (ctx : Context) (accs : AcceptAuthorityAccounts)
    (w w' : RelayerWorld) (c : PairConfig) : Prop where
  signer : accs.pendingAuthority ∈ ctx.signers
  config_at : pairConfigAt w.accounts accs.pairConfig = some c
  pending : c.pendingAuthority = some accs.pendingAuthority
  result : w' = writeAccount accs.pairConfig
    (.pairConfig { c with authority := accs.pendingAuthority, pendingAuthority := none }) w

theorem acceptAuthority_spec {rt : RelayerRuntime} {ctx : Context}
    {accs : AcceptAuthorityAccounts} {w w' : RelayerWorld}
    (h : acceptAuthority rt ctx accs w = .ok w') : ∃ c, AcceptAuthoritySpec ctx accs w w' c := by
  simp only [acceptAuthority, PairConfig.acceptAuthority, bind_eq_ok, loadSigner_eq_ok,
    loadAccount_eq_ok, checkSeeds_eq_ok, liftOption_eq_ok, require_eq_ok, pure_eq_ok,
    exists_const] at h
  obtain ⟨hsig, c, hc, -, _, ⟨pending, hpending, rfl, rfl⟩, rfl⟩ := h
  exact ⟨c, hsig, hc, hpending, rfl⟩

/-- A successful `set_admin`. -/
structure SetAdminSpec (ctx : Context) (accs : SetAdminAccounts) (newAdmin : Pubkey)
    (w w' : RelayerWorld) (g : GlobalConfig) : Prop where
  signer : accs.admin ∈ ctx.signers
  config_at : globalConfigAt w.accounts accs.globalConfig = some g
  by_admin : g.admin = accs.admin
  ne_admin : newAdmin ≠ g.admin
  result : w' = writeAccount accs.globalConfig
    (.globalConfig { g with pendingAdmin := some newAdmin }) w

theorem setAdmin_spec {rt : RelayerRuntime} {ctx : Context} {accs : SetAdminAccounts}
    {newAdmin : Pubkey} {w w' : RelayerWorld} (h : setAdmin rt ctx accs newAdmin w = .ok w') :
    ∃ g, SetAdminSpec ctx accs newAdmin w w' g := by
  simp only [setAdmin, bind_eq_ok, loadSigner_eq_ok, loadAccount_eq_ok, checkSeeds_eq_ok,
    require_eq_ok, pure_eq_ok, exists_const] at h
  obtain ⟨hsig, g, hg, -, hby, hne, rfl⟩ := h
  exact ⟨g, hsig, hg, hby, hne, rfl⟩

/-- A successful `accept_admin`. -/
structure AcceptAdminSpec (ctx : Context) (accs : AcceptAdminAccounts) (w w' : RelayerWorld)
    (g : GlobalConfig) : Prop where
  signer : accs.pendingAdmin ∈ ctx.signers
  config_at : globalConfigAt w.accounts accs.globalConfig = some g
  pending : g.pendingAdmin = some accs.pendingAdmin
  result : w' = writeAccount accs.globalConfig
    (.globalConfig { g with admin := accs.pendingAdmin, pendingAdmin := none }) w

theorem acceptAdmin_spec {rt : RelayerRuntime} {ctx : Context} {accs : AcceptAdminAccounts}
    {w w' : RelayerWorld} (h : acceptAdmin rt ctx accs w = .ok w') :
    ∃ g, AcceptAdminSpec ctx accs w w' g := by
  simp only [acceptAdmin, bind_eq_ok, loadSigner_eq_ok, loadAccount_eq_ok, checkSeeds_eq_ok,
    liftOption_eq_ok, require_eq_ok, pure_eq_ok, exists_const] at h
  obtain ⟨hsig, g, hg, -, pending, hpending, rfl, rfl⟩ := h
  exact ⟨g, hsig, hg, hpending, rfl⟩

end FogoYield.Relayer
