import FogoYield.Verification.Intent.Handlers

/-! # What a successful bridge and a successful configuration have checked and done -/

namespace FogoYield.Intent

open FogoYield.Library FogoYield.Solana

variable {K : Crates} {rt : IntentRuntime}

/-! ## The intermediate account -/

/-- The setter holds the intermediate account, which was created unless it was there. -/
structure IntermediateLoaded (rt : IntentRuntime) (source mint setter k : Pubkey)
    (t : TokenAccount) (w w' : IntentWorld) : Prop where
  address : k = intermediateKey rt source
  init : CreateSpec k tokenProgram (.token ⟨mint, setter, 0, none, 0, none⟩) w w' ∨
    w' = w ∧ (w.accounts k).owner ≠ systemProgram
  token : tokenAt w'.accounts k = some t
  mint_eq : t.mint = mint
  owner_eq : t.owner = setter

theorem loadIntermediate_spec {accs : BridgeNttTokensAccounts} {w w' : IntentWorld}
    (h : loadIntermediate rt accs w = .ok w') :
    ∃ t, IntermediateLoaded rt accs.source accs.mint accs.intentTransferSetter
      accs.intermediateTokenAccount t w w' := by
  simp only [loadIntermediate, bind_eq_ok, findSeeds_eq_ok, checkTokenMint_eq_ok,
    constrain_eq_ok, pure_eq_ok, exists_const] at h
  obtain ⟨bump, hk, w₁, hinit, t, ⟨ht, -, hmint⟩, howner, rfl⟩ := h
  exact ⟨t, key_of_find hk, initIfNeeded_spec hinit, ht, hmint, howner⟩

/-! ## The bridge -/

/-- The calls that take the tokens over the bridge: burned in `w₁`, published in `w₂`, and paid for
in `w₃`. -/
structure BurnedAndRelayed (rt : IntentRuntime) (ctx : Context) (accs : BridgeNttTokensAccounts)
    (args : BridgeNttTokensArgs) (toChainId : WormholeChainId) (transferArgs : TransferArgs)
    (w w₁ w₂ w₃ : IntentWorld) : Prop where
  burn : InvokedSigned rt programId ctx [] (transferBurnIx accs transferArgs) w w₁
  release : InvokedSigned rt programId ctx [] (releaseWormholeOutboundIx accs true) w₁ w₂
  relay : ∃ relayArgs,
    computeRelayNttArgs toChainId args.signedQuoteBytes args.payDestinationAtaRent =
      .ok relayArgs ∧ InvokedSigned rt programId ctx [] (relayNttMessageIx accs relayArgs) w₂ w₃

theorem burnAndRelay_spec {ctx : Context} {accs : BridgeNttTokensAccounts}
    {args : BridgeNttTokensArgs} {toChainId : WormholeChainId} {transferArgs : TransferArgs}
    {w w' : IntentWorld}
    (h : burnAndRelay rt ctx accs args toChainId transferArgs w = .ok w') :
    ∃ w₁ w₂, BurnedAndRelayed rt ctx accs args toChainId transferArgs w w₁ w₂ w' := by
  simp only [burnAndRelay, bind_eq_ok] at h
  obtain ⟨w₁, hburn, w₂, hrelease, relayArgs, hargs, hrelay⟩ := h
  exact ⟨w₁, w₂, invokeSigned_invoked hburn, invokeSigned_invoked hrelease, relayArgs, hargs,
    invokeSigned_invoked hrelay⟩

/-- The states between the parts of a bridge. -/
structure BridgeStates where
  /-- After the creation of the intermediate account. -/
  opened : IntentWorld
  /-- After the creation of the nonce. -/
  counted : IntentWorld
  /-- After the transfer to the intermediate account. -/
  funded : IntentWorld
  /-- After the delegation to the session authority. -/
  approved : IntentWorld
  burned : IntentWorld
  released : IntentWorld
  relayed : IntentWorld
  /-- After the intermediate account was closed. -/
  closed : IntentWorld
  /-- After the fee. -/
  collected : IntentWorld

/-- A successful `bridge_ntt_tokens`: the message it executed, and the states between its parts. -/
structure BridgeSpec (K : Crates) (rt : IntentRuntime) (ctx : IntentContext)
    (accs : BridgeNttTokensAccounts) (args : BridgeNttTokensArgs) (w w' : IntentWorld)
    (signed : SignedIntent) (m : NttMessage) (source intermediate : TokenAccount) (mint : Mint)
    (nonce : UInt64) (fee : FeeLoaded) (setterBump : UInt8) (toChainId : WormholeChainId)
    (transferArgs : TransferArgs) (st : BridgeStates) : Prop where
  intent : ctx.intent = .ok signed
  parsed : bridgeMessageTryFrom K.intents signed.message = some (.ntt m)
  chain : K.chainIdOf (w.accounts accs.fromChainId).bytes = some m.fromChainId
  token : verifySymbolOrMint K rt m.symbolOrMint accs.metadata accs.mint st.counted = .ok ()
  source_at : tokenAt w.accounts accs.source = some source
  source_owner : source.owner = signed.signer
  source_mint : source.mint = accs.mint
  mint_at : mintAt w.accounts accs.mint = some mint
  setter : rt.findProgramAddress [intentTransferSeed] programId =
    (accs.intentTransferSetter, setterBump)
  sponsor : accs.sponsor ∈ ctx.signers
  outbox : accs.ntt.nttOutboxItem ∈ ctx.signers
  expected : accs.expectedNttConfig =
    (rt.findProgramAddress [expectedNttConfigSeed, accs.mint.bytes] programId).1
  manager : programAt programId w.accounts accs.expectedNttConfig =
    some (.expectedNttConfig accs.ntt.nttManager)
  fee_checked : FeeChecked rt ctx.toContext accs.toFeeAccounts signed.signer w fee
  intermediate_loaded : IntermediateLoaded rt accs.source accs.mint accs.intentTransferSetter
    accs.intermediateTokenAccount intermediate w st.opened
  nonce_loaded : NonceLoaded rt bridgeNttNonceSeed signed.signer accs.nonce nonce st.opened
    st.counted
  next : m.nonce.toNat = nonce.toNat + 1
  amount : K.tryUiAmountIntoAmount m.amount mint.decimals = some transferArgs.amount
  to_chain : convertChainIdToWormhole m.toChainId = some toChainId
  recipient_chain : transferArgs.recipientChain = toChainId.toU16
  recipient : resolveRecipient (addresses rt) m.recipient signed.signer =
    some transferArgs.recipientAddress
  not_queued : transferArgs.shouldQueue = false
  transfer : SessionTransferred rt ctx.toContext accs.source accs.mint
    accs.intermediateTokenAccount accs.signerOrSession accs.programSigner fee.signerBump
    transferArgs.amount mint.decimals st.counted st.funded
  approval : InvokedSigned rt programId ctx.toContext [intentTransferSeed, [setterBump]]
    (approveIx tokenProgram accs.intermediateTokenAccount accs.ntt.nttSessionAuthority
      accs.intentTransferSetter transferArgs.amount) st.funded st.approved
  relayed : BurnedAndRelayed rt ctx.toContext accs args toChainId transferArgs st.approved st.burned st.released
    st.relayed
  closing : InvokedSigned rt programId ctx.toContext [intentTransferSeed, [setterBump]]
    (closeAccountIx tokenProgram accs.intermediateTokenAccount accs.sponsor
      accs.intentTransferSetter) st.relayed st.closed
  fee_collected : FeeCollected K rt ctx.toContext accs.toFeeAccounts fee
    fee.config.bridgeTransferFee m.feeAmount m.feeSymbolOrMint st.closed st.collected
  result : w' = writeAccount accs.nonce (.nonce m.nonce) st.collected

theorem bridgeNttTokens_spec {ctx : IntentContext} {accs : BridgeNttTokensAccounts}
    {args : BridgeNttTokensArgs} {w w' : IntentWorld}
    (h : bridgeNttTokens K rt ctx accs args w = .ok w') :
    ∃ signed m source intermediate mint nonce fee setterBump toChainId transferArgs st,
      BridgeSpec K rt ctx accs args w w' signed m source intermediate mint nonce fee setterBump
        toChainId transferArgs st := by
  simp only [bridgeNttTokens, bind_eq_ok] at h
  obtain ⟨loaded, hload, ⟨⟨m⟩, signer⟩, hintent, h⟩ := h
  obtain ⟨signed, hsigned, rfl, hparsed⟩ := loadIntent_eq_ok.mp hintent
  simp only [processNttBridge, uiAmount, bind_eq_ok, require_eq_ok, liftOption_eq_ok,
    verifySignerMatchesSource_eq_ok, verifyAndUpdateNonce_eq_ok, pure_eq_ok, exists_const] at h
  obtain ⟨hchain, ⟨⟩, htoken, hsigner, n, ⟨hnext, rfl⟩, hmanager, amount, hamount, w₃, htransfer,
    toChainId, hto, recipientAddress, hrecipient, w₄, happrove, w₇, hrelay, w₈, hclose, w₉, hfee,
    rfl⟩ := h
  simp only [BridgeNttTokensAccounts.load, bind_eq_ok, constrain_eq_ok, loadSplMint_eq_ok,
    loadSigner_eq_ok, checkProgram_eq_ok, findSeeds_eq_ok, checkTokenMint_eq_ok,
    loadAccount_eq_ok, pure_eq_ok, exists_const] at hload
  obtain ⟨chainId, hid, -, mint, ⟨hmint, -⟩, hsponsor, houtbox, -, -, -, setterBump, hsetter,
    source, ⟨hsource, -, hsourceMint⟩, manager, hexpected, bump, hexpectedKey, fee, hfeeLoad, -,
    -, w₁, hintermediate, ⟨n, w₂⟩, hnonce, rfl⟩ := hload
  dsimp only at hsigner hchain hmanager
  obtain ⟨d, hd, hm⟩ := Option.bind_eq_some_iff.mp hexpected
  rw [asExpectedNttConfig_eq_some] at hm
  obtain ⟨intermediate, hinter⟩ := loadIntermediate_spec hintermediate
  obtain ⟨w₅, w₆, hrelayed⟩ := burnAndRelay_spec hrelay
  refine ⟨signed, m, source, intermediate, mint, n, fee, setterBump, toChainId,
    ⟨amount, toChainId.toU16, recipientAddress, false⟩, ⟨w₁, w₂, w₃, w₄, w₅, w₆, w₇, w₈, w₉⟩, ?_⟩
  exact {
    intent := hsigned
    parsed := hparsed
    chain := hchain ▸ loadChainId_spec hid
    token := htoken
    source_at := hsource
    source_owner := hsigner.symm
    source_mint := hsourceMint
    mint_at := hmint
    setter := hsetter
    sponsor := hsponsor
    outbox := houtbox
    expected := key_of_find hexpectedKey
    manager := hmanager ▸ hm ▸ hd
    fee_checked := hsigner ▸ feeAccounts_load_spec hfeeLoad
    intermediate_loaded := hinter
    nonce_loaded := hsigner ▸ loadNonce_spec hnonce
    next := hnext
    amount := hamount
    to_chain := hto
    recipient_chain := rfl
    recipient := hrecipient
    not_queued := rfl
    transfer := inSessionTransferChecked_spec htransfer
    approval := invokeSigned_invoked happrove
    relayed := hrelayed
    closing := invokeSigned_invoked hclose
    fee_collected := verifyAndCollectFee_spec hfee
    result := rfl }

/-! ## The configuration -/

/-- The upgrade authority of the program, as the loader holds it, signed. -/
structure Authorized (K : Crates) (rt : IntentRuntime) (ctx : Context) (signer programData : Pubkey)
    (w : IntentWorld) : Prop where
  signed : signer ∈ ctx.signers
  loader : (w.accounts programData).owner = bpfLoaderUpgradeable
  address : programData = (rt.findProgramAddress [programId.bytes] bpfLoaderUpgradeable).1
  authority : K.upgradeAuthorityOf (w.accounts programData).bytes = some (some signer)

theorem loadUpgradeAuthority_spec {ctx : Context} {signer programData : Pubkey} {w : IntentWorld}
    (h : loadUpgradeAuthority K rt ctx signer programData w = .ok ()) :
    Authorized K rt ctx signer programData w := by
  simp only [loadUpgradeAuthority, bind_eq_ok, loadSigner_eq_ok, constrain_eq_ok, findSeeds_eq_ok,
    exists_const] at h
  obtain ⟨hsigned, hloader, bump, haddress, h⟩ := h
  refine ⟨hsigned, hloader, key_of_find haddress, ?_⟩
  split at h
  · cases h
  · cases h
  · rename_i authority hauthority
    rw [constrain_eq_ok] at h
    rw [hauthority, h]

/-- A config instruction passed its checks, with the account under `seeds`. -/
structure ConfigChecked (K : Crates) (rt : IntentRuntime) (ctx : Context) (accs : ConfigAccounts)
    (seeds : List Bytes) (w : IntentWorld) : Prop where
  authorized : Authorized K rt ctx accs.signer accs.programData w
  address : accs.config = (rt.findProgramAddress seeds programId).1

theorem configAccounts_load_spec {ctx : Context} {accs : ConfigAccounts} {seeds : List Bytes}
    {w : IntentWorld} (h : accs.load K rt ctx seeds w = .ok ()) :
    ConfigChecked K rt ctx accs seeds w := by
  simp only [ConfigAccounts.load, bind_eq_ok, loadSplMint_eq_ok, checkProgram_eq_ok,
    findSeeds_eq_ok, pure_eq_ok, exists_const] at h
  obtain ⟨⟨⟩, hauthority, m, -, -, bump, haddress⟩ := h
  exact ⟨loadUpgradeAuthority_spec hauthority, key_of_find haddress.1⟩

/-- The account under `seeds` now holds `d`, and no other account holds anything else. -/
structure ConfigSpec (K : Crates) (rt : IntentRuntime) (ctx : Context) (accs : ConfigAccounts)
    (seeds : List Bytes) (d : IntentData) (w w' : IntentWorld) : Prop where
  checked : ConfigChecked K rt ctx accs seeds w
  rewritten : Rewritten programId accs.config d w w'
  config_owner : (w.accounts accs.config).owner = systemProgram ∨
    (w.accounts accs.config).owner = programId
  others : ∀ j, j ≠ accs.config → SameData w.accounts w'.accounts j
  cpis_eq : w'.cpis = w.cpis

theorem writeAccount_others {k j : Pubkey} (d : IntentData) (w : IntentWorld) (h : j ≠ k) :
    SameData w.accounts (writeAccount k d w).accounts j := by
  apply SameData.of_eq
  simp [writeAccount, World.setAccount, h]

/-- Writing over the account that `init_if_needed` left. -/
theorem ConfigSpec.of_init {ctx : Context} {accs : ConfigAccounts} {seeds : List Bytes} {payer : Pubkey}
    {space : ℕ} {d₀ d₁ d : IntentData} {w w₁ : IntentWorld}
    (hchecked : ConfigChecked K rt ctx accs seeds w)
    (hinit : initIfNeeded rt payer accs.config programId space (.program d₀) w = .ok w₁)
    (hstored : programAt programId w₁.accounts accs.config = some d₁) :
    ConfigSpec K rt ctx accs seeds d w (writeAccount accs.config d w₁) := by
  have hwrite : Rewritten programId accs.config d w₁ (writeAccount accs.config d w₁) :=
    .of_setAccount hstored
  rcases initIfNeeded_spec hinit with hcreate | ⟨rfl, -⟩
  · refine ⟨hchecked, (Rewritten.of_create hcreate).trans hwrite, .inl hcreate.was_system, ?_,
      hcreate.cpis_eq⟩
    intro j hj
    have hothers := writeAccount_others d w₁ hj
    have hbefore := hcreate.others j hj
    exact ⟨hothers.1.trans hbefore.1, hothers.2.trans hbefore.2⟩
  · exact ⟨hchecked, hwrite, .inr (programAt_eq_some.mp hstored).1,
      fun j hj => writeAccount_others d w₁ hj, rfl⟩

theorem registerNttConfig_spec {ctx : Context} {accs : ConfigAccounts} {nttManager : Pubkey}
    {w w' : IntentWorld} (h : registerNttConfig K rt ctx accs nttManager w = .ok w') :
    ConfigSpec K rt ctx accs (expectedNttConfigSeeds accs.mint) (.expectedNttConfig nttManager) w
      w' := by
  simp only [registerNttConfig, bind_eq_ok, loadAccount_eq_ok, pure_eq_ok] at h
  obtain ⟨⟨⟩, hload, w₁, hinit, manager, hstored, rfl⟩ := h
  obtain ⟨d, hd, -⟩ := Option.bind_eq_some_iff.mp hstored
  exact .of_init (configAccounts_load_spec hload) hinit hd

theorem registerFeeConfig_spec {ctx : Context} {accs : ConfigAccounts} {feeConfig : FeeConfig}
    {w w' : IntentWorld} (h : registerFeeConfig K rt ctx accs feeConfig w = .ok w') :
    ConfigSpec K rt ctx accs (feeConfigSeeds accs.mint) (.feeConfig feeConfig) w w' := by
  simp only [registerFeeConfig, bind_eq_ok, loadAccount_eq_ok, pure_eq_ok] at h
  obtain ⟨⟨⟩, hload, w₁, hinit, c, hstored, rfl⟩ := h
  obtain ⟨d, hd, -⟩ := Option.bind_eq_some_iff.mp hstored
  exact .of_init (configAccounts_load_spec hload) hinit hd

/-- The top-up moves lamports only, so the rewritten account is all that changes. -/
theorem updateFeeConfig_spec {ctx : Context} {accs : ConfigAccounts} {feeConfig : FeeConfig}
    {w w' : IntentWorld} (h : updateFeeConfig K rt ctx accs feeConfig w = .ok w') :
    ConfigSpec K rt ctx accs (feeConfigSeeds accs.mint) (.feeConfig feeConfig) w w' := by
  simp only [updateFeeConfig, bind_eq_ok, constrain_eq_ok, pure_eq_ok, exists_const] at h
  obtain ⟨⟨⟩, hload, -, howner, rfl⟩ := h
  refine ⟨configAccounts_load_spec hload, ⟨?_, ?_⟩, .inr howner, ?_, rfl⟩
  · simp [programAt_eq_some, writeAccount, World.setAccount, howner]
  · intro j hj
    apply SameData.programAt
    simp [SameData, writeAccount, World.setAccount, hj]
  · intro j hj
    simp [SameData, writeAccount, World.setAccount, hj]

end FogoYield.Intent
