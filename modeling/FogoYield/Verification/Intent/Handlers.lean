import FogoYield.Model.Intent.Program

/-! # What a successful instruction of the intent program has checked and done

One contract per part of a handler, so that later proofs never unfold one. -/

namespace FogoYield.Intent

open FogoYield.Library FogoYield.Solana

variable {K : Crates} {rt : IntentRuntime}

/-- The address of the nonce of `owner` under one of the two nonce seeds. -/
def nonceKey (rt : IntentRuntime) (seed : Bytes) (owner : Pubkey) : Pubkey :=
  (rt.findProgramAddress [seed, owner.bytes] programId).1

/-- The address of the intermediate account of a source. -/
def intermediateKey (rt : IntentRuntime) (source : Pubkey) : Pubkey :=
  (rt.findProgramAddress (intermediateSeeds source) programId).1

/-- The setter, which signs for the intermediate accounts. -/
def setterKey (rt : IntentRuntime) : Pubkey :=
  (rt.findProgramAddress [intentTransferSeed] programId).1

theorem key_of_find {seeds : List Bytes} {p k : Pubkey} {bump : UInt8}
    (h : rt.findProgramAddress seeds p = (k, bump)) : k = (rt.findProgramAddress seeds p).1 := by
  rw [h]

/-- The accounts that belong to a key have a tag and the key for seeds. -/
def keyedShape (tag : Bytes) : List SeedKind := [.text tag, .word]

theorem fits_keyed (tag : Bytes) (owner : Pubkey) : Fits (keyedShape tag) [tag, owner.bytes] := by
  simp [keyedShape]

/-- Such an address tells its tag and its key. -/
theorem keyed_inj (hl : rt.AddressLaws) {tag tag' : Bytes} {owner owner' : Pubkey}
    (heq : (rt.findProgramAddress [tag, owner.bytes] programId).1 =
      (rt.findProgramAddress [tag', owner'.bytes] programId).1) : tag = tag' ∧ owner = owner' := by
  have htold : Told (keyedShape tag) (keyedShape tag') := by
    by_cases h : tag = tag'
    · rw [h]
      exact told_self _
    · exact told_of_text h _
  obtain ⟨hseeds, -⟩ := hl.find_inj htold (fits_keyed ..) (fits_keyed ..) heq
  simp only [List.cons.injEq, and_true] at hseeds
  cases owner
  cases owner'
  exact ⟨hseeds.1, congrArg Pubkey.mk hseeds.2⟩

/-! ## Accounts -/

@[simp] theorem loadSplToken_eq_ok {w : IntentWorld} {k : Pubkey} {t : TokenAccount} :
    loadSplToken w k = .ok t ↔ tokenAt w.accounts k = some t ∧ (w.accounts k).owner = tokenProgram := by
  simp only [loadSplToken, bind_eq_ok, loadToken_eq_ok, constrain_eq_ok, pure_eq_ok, exists_const]
  constructor
  · rintro ⟨t', ht, ho, rfl⟩
    exact ⟨ht, ho⟩
  · rintro ⟨ht, ho⟩
    exact ⟨t, ht, ho, rfl⟩

@[simp] theorem loadSplMint_eq_ok {w : IntentWorld} {k : Pubkey} {m : Mint} :
    loadSplMint w k = .ok m ↔ mintAt w.accounts k = some m ∧ (w.accounts k).owner = tokenProgram := by
  simp only [loadSplMint, bind_eq_ok, loadMint_eq_ok, constrain_eq_ok, pure_eq_ok, exists_const]
  constructor
  · rintro ⟨m', hm, ho, rfl⟩
    exact ⟨hm, ho⟩
  · rintro ⟨hm, ho⟩
    exact ⟨m, hm, ho, rfl⟩

/-- An account was created, or nothing was done to one that is not the system program's. -/
theorem initIfNeeded_spec {payer k owner : Pubkey} {space : ℕ} {data : Data IntentData}
    {w w' : IntentWorld} (h : initIfNeeded rt payer k owner space data w = .ok w') :
    CreateSpec k owner data w w' ∨ w' = w ∧ (w.accounts k).owner ≠ systemProgram := by
  unfold initIfNeeded at h
  split at h
  · exact .inl (createAccount_spec h)
  · rename_i hne
    exact .inr ⟨(pure_eq_ok.mp h).symm, hne⟩

theorem initAssociatedTokenIfNeeded_spec {payer mint authority k : Pubkey} {w w' : IntentWorld}
    (h : initAssociatedTokenIfNeeded rt payer mint authority k w = .ok w') :
    CreateSpec k tokenProgram (.token ⟨mint, authority, 0, none, 0, none⟩) w w' ∨ w' = w := by
  unfold initAssociatedTokenIfNeeded at h
  split at h
  · exact .inl (initAssociatedToken_spec h).2.2.2
  · exact .inr (pure_eq_ok.mp h).symm

/-- The nonce of `owner` as the handler gets it, which is zero when it had to be created. -/
structure NonceLoaded (rt : IntentRuntime) (seed : Bytes) (owner k : Pubkey) (n : UInt64)
    (w w' : IntentWorld) : Prop where
  address : k = nonceKey rt seed owner
  init : CreateSpec k programId (.program (.nonce 0)) w w' ∨
    w' = w ∧ (w.accounts k).owner ≠ systemProgram
  stored : programAt programId w'.accounts k = some (.nonce n)

theorem asNonce_eq_some {d : IntentData} {n : UInt64} :
    d.asNonce = some n ↔ d = .nonce n := by
  cases d <;> simp [IntentData.asNonce]

theorem loadNonce_spec {payer owner k : Pubkey} {seed : Bytes} {n : UInt64} {w w' : IntentWorld}
    (h : loadNonce rt payer seed owner k w = .ok (n, w')) :
    NonceLoaded rt seed owner k n w w' := by
  simp only [loadNonce, bind_eq_ok, findSeeds_eq_ok, loadAccount_eq_ok, pure_eq_ok,
    Prod.mk.injEq] at h
  obtain ⟨bump, hk, w₁, hinit, n', hload, rfl, rfl⟩ := h
  obtain ⟨d, hd, hn⟩ := Option.bind_eq_some_iff.mp hload
  rw [asNonce_eq_some] at hn
  exact ⟨key_of_find hk, initIfNeeded_spec hinit, hn ▸ hd⟩

theorem asFeeConfig_eq_some {d : IntentData} {c : FeeConfig} :
    d.asFeeConfig = some c ↔ d = .feeConfig c := by
  cases d <;> simp [IntentData.asFeeConfig]

theorem asExpectedNttConfig_eq_some {d : IntentData} {manager : Pubkey} :
    d.asExpectedNttConfig = some manager ↔ d = .expectedNttConfig manager := by
  cases d <;> simp [IntentData.asExpectedNttConfig]

/-- The fee config of a mint, as it is stored. -/
structure FeeConfigAt (rt : IntentRuntime) (w : IntentWorld) (feeMint k : Pubkey)
    (c : FeeConfig) : Prop where
  address : k = (rt.findProgramAddress (feeConfigSeeds feeMint) programId).1
  stored : programAt programId w.accounts k = some (.feeConfig c)

theorem loadFeeConfig_spec {feeMint k : Pubkey} {c : FeeConfig} {w : IntentWorld}
    (h : loadFeeConfig rt feeMint k w = .ok c) : FeeConfigAt rt w feeMint k c := by
  simp only [loadFeeConfig, bind_eq_ok, findSeeds_eq_ok, loadAccount_eq_ok, pure_eq_ok] at h
  obtain ⟨c', hload, bump, hk, rfl⟩ := h
  obtain ⟨d, hd, hc⟩ := Option.bind_eq_some_iff.mp hload
  rw [asFeeConfig_eq_some] at hc
  exact ⟨key_of_find hk, hc ▸ hd⟩

/-! ## Fees -/

/-- The fee accounts a handler was given: the fee leaves an account of `owner`, for the account of
the configured recipient. -/
structure FeeChecked (rt : IntentRuntime) (ctx : Context) (accs : FeeAccounts) (owner : Pubkey)
    (w : IntentWorld) (loaded : FeeLoaded) : Prop where
  config : FeeConfigAt rt w accs.feeMint accs.feeConfig loaded.config
  mint : mintAt w.accounts accs.feeMint = some loaded.mint
  source : ∃ t, tokenAt w.accounts accs.feeSource = some t ∧ t.mint = accs.feeMint ∧ t.owner = owner
  destination : ∃ t, IsAssociatedToken rt w.accounts accs.feeMint loaded.config.feeRecipient
    tokenProgram accs.feeDestination t
  session : accs.signerOrSession ∈ ctx.signers
  signer : rt.findProgramAddress [programSignerSeed] programId =
    (accs.programSigner, loaded.signerBump)

theorem feeAccounts_load_spec {ctx : Context} {accs : FeeAccounts} {owner : Pubkey}
    {w : IntentWorld} {loaded : FeeLoaded} (h : accs.load rt ctx owner w = .ok loaded) :
    FeeChecked rt ctx accs owner w loaded := by
  simp only [FeeAccounts.load, bind_eq_ok, loadSplMint_eq_ok, checkTokenMint_eq_ok,
    constrain_eq_ok, checkAssociatedToken_eq_ok, loadSigner_eq_ok, findSeeds_eq_ok, pure_eq_ok,
    exists_const] at h
  obtain ⟨c, hc, m, ⟨hm, -⟩, s, ⟨hs, -, hsm⟩, hso, d, hd, hsession, bump, hsigner, rfl⟩ := h
  exact ⟨loadFeeConfig_spec hc, hm, ⟨s, hs, hsm, hso⟩, ⟨d, hd⟩, hsession, hsigner⟩

/-- A transfer on the session rail, signed for by the program signer. -/
abbrev SessionTransferred (rt : IntentRuntime) (ctx : Context)
    (source mint dest authority programSigner : Pubkey) (bump : UInt8) (amount : UInt64)
    (decimals : UInt8) : IntentWorld → IntentWorld → Prop :=
  InvokedSigned rt programId ctx [programSignerSeed, [bump]]
    (inSessionTransferIx tokenProgram source mint dest authority programSigner amount decimals)

theorem inSessionTransferChecked_spec {ctx : Context}
    {source mint dest authority programSigner : Pubkey} {bump : UInt8} {amount : UInt64}
    {decimals : UInt8} {w w' : IntentWorld}
    (h : inSessionTransferChecked rt ctx source mint dest authority programSigner bump amount
      decimals w = .ok w') :
    SessionTransferred rt ctx source mint dest authority programSigner bump amount decimals w
      w' :=
  invokeSigned_invoked h

/-- The collected fee is the configured one, which the signed one covers. -/
structure FeeCollected (K : Crates) (rt : IntentRuntime) (ctx : Context) (accs : FeeAccounts)
    (loaded : FeeLoaded) (feeAmount : UInt64) (intentFeeAmount : String)
    (feeSymbolOrMint : SymbolOrMint) (w w' : IntentWorld) : Prop where
  token : verifySymbolOrMint K rt feeSymbolOrMint accs.feeMetadata accs.feeMint w = .ok ()
  covered : ∃ signed, K.tryUiAmountIntoAmount intentFeeAmount loaded.mint.decimals = some signed ∧
    feeAmount ≤ signed
  transfer : SessionTransferred rt ctx accs.feeSource accs.feeMint accs.feeDestination
    accs.signerOrSession accs.programSigner loaded.signerBump feeAmount loaded.mint.decimals w w'

theorem verifyAndCollectFee_spec {ctx : Context} {accs : FeeAccounts} {loaded : FeeLoaded}
    {feeAmount : UInt64} {intentFeeAmount : String} {feeSymbolOrMint : SymbolOrMint}
    {w w' : IntentWorld}
    (h : verifyAndCollectFee K rt ctx accs loaded feeAmount intentFeeAmount feeSymbolOrMint w =
      .ok w') :
    FeeCollected K rt ctx accs loaded feeAmount intentFeeAmount feeSymbolOrMint w w' := by
  simp only [verifyAndCollectFee, uiAmount, bind_eq_ok, liftOption_eq_ok, require_eq_ok,
    exists_const] at h
  obtain ⟨⟨⟩, htoken, signed, hsigned, hle, htransfer⟩ := h
  exact ⟨htoken, ⟨signed, hsigned, hle⟩, inSessionTransferChecked_spec htransfer⟩

/-! ## Signed messages -/

@[simp] theorem loadIntent_eq_ok {M : Type} {tryFrom : Bytes → Option M} {ctx : IntentContext}
    {m : M} {signer : Pubkey} :
    loadIntent tryFrom ctx = .ok (m, signer) ↔
      ∃ signed, ctx.intent = .ok signed ∧ signed.signer = signer ∧
        tryFrom signed.message = some m := by
  unfold loadIntent
  cases hctx : ctx.intent with
  | error e => simp
  | ok signed =>
      simp only [bind_eq_ok, liftOption_eq_ok, pure_eq_ok, Prod.mk.injEq, Except.ok.injEq,
        exists_eq_left']
      constructor
      · rintro ⟨m', hm, rfl, rfl⟩
        exact ⟨rfl, hm⟩
      · rintro ⟨rfl, hm⟩
        exact ⟨m, hm, rfl, rfl⟩

@[simp] theorem verifyAndUpdateNonce_eq_ok {nonce newNonce n : UInt64} :
    verifyAndUpdateNonce nonce newNonce = .ok n ↔ newNonce.toNat = nonce.toNat + 1 ∧ newNonce = n := by
  simp only [verifyAndUpdateNonce, bind_eq_ok, require_eq_ok, pure_eq_ok, exists_const]

@[simp] theorem verifySignerMatchesSource_eq_ok {signer owner : Pubkey} {u : Unit} :
    verifySignerMatchesSource signer owner = .ok u ↔ signer = owner := by
  simp [verifySignerMatchesSource]

/-! ## Transfers within the chain -/

theorem loadChainId_spec {w : IntentWorld} {k : Pubkey} {chainId : String}
    (h : loadChainId K rt w k = .ok chainId) : K.chainIdOf (w.accounts k).bytes = some chainId := by
  simp only [loadChainId, bind_eq_ok, constrain_eq_ok, findSeeds_eq_ok, exists_const] at h
  obtain ⟨-, bump, -, h⟩ := h
  cases hid : K.chainIdOf (w.accounts k).bytes with
  | none =>
      rw [hid] at h
      cases h
  | some held =>
      rw [hid] at h
      rw [pure_eq_ok.mp h]

/-- A successful `send_tokens`: the message it executed, and the states between its parts. `w₁`
follows the creation of the destination, `w₂` that of the nonce, `w₃` the transfer and `w₄` the
fee. -/
structure SendTokensSpec (K : Crates) (rt : IntentRuntime) (ctx : IntentContext)
    (accs : SendTokensAccounts) (w w' : IntentWorld) (signed : SignedIntent) (m : Message)
    (source : TokenAccount) (mint : Mint) (nonce amount : UInt64) (fee : FeeLoaded)
    (w₁ w₂ w₃ w₄ : IntentWorld) : Prop where
  intent : ctx.intent = .ok signed
  parsed : messageTryFrom K.intents signed.message = some m
  chain : K.chainIdOf (w.accounts accs.chainId).bytes = some m.chainId
  token : verifySymbolOrMint K rt m.symbolOrMint accs.metadata accs.mint w₂ = .ok ()
  source_at : tokenAt w.accounts accs.source = some source
  source_owner : source.owner = signed.signer
  source_mint : source.mint = accs.mint
  mint_at : mintAt w.accounts accs.mint = some mint
  recipient : m.recipient = accs.destinationOwner
  sponsor : accs.sponsor ∈ ctx.signers
  destination_init : CreateSpec accs.destination tokenProgram
    (.token ⟨accs.mint, accs.destinationOwner, 0, none, 0, none⟩) w w₁ ∨ w₁ = w
  destination_ata : ∃ t, IsAssociatedToken rt w₁.accounts accs.mint accs.destinationOwner
    tokenProgram accs.destination t
  nonce_loaded : NonceLoaded rt intentTransferNonceSeed signed.signer accs.nonce nonce w₁ w₂
  next : m.nonce.toNat = nonce.toNat + 1
  amount_eq : K.tryUiAmountIntoAmount m.amount mint.decimals = some amount
  fee_checked : FeeChecked rt ctx.toContext accs.toFeeAccounts signed.signer w fee
  transfer : SessionTransferred rt ctx.toContext accs.source accs.mint accs.destination
    accs.signerOrSession accs.programSigner fee.signerBump amount mint.decimals w₂ w₃
  fee_collected : FeeCollected K rt ctx.toContext accs.toFeeAccounts fee
    fee.config.intrachainTransferFee m.feeAmount m.feeSymbolOrMint w₃ w₄
  result : w' = writeAccount accs.nonce (.nonce m.nonce) w₄

theorem sendTokens_spec {ctx : IntentContext} {accs : SendTokensAccounts} {w w' : IntentWorld}
    (h : sendTokens K rt ctx accs w = .ok w') :
    ∃ signed m source mint nonce amount fee w₁ w₂ w₃ w₄,
      SendTokensSpec K rt ctx accs w w' signed m source mint nonce amount fee w₁ w₂ w₃ w₄ := by
  simp only [sendTokens, uiAmount, bind_eq_ok, require_eq_ok, liftOption_eq_ok,
    verifySignerMatchesSource_eq_ok, verifyAndUpdateNonce_eq_ok, pure_eq_ok, exists_const] at h
  obtain ⟨loaded, hload, ⟨m, signer⟩, hintent, hchain, ⟨⟩, htoken, hsigner, hrecipient, n,
    ⟨hnext, rfl⟩, amount, hamount, w₃, htransfer, w₄, hfee, rfl⟩ := h
  obtain ⟨signed, hsigned, rfl, hparsed⟩ := loadIntent_eq_ok.mp hintent
  simp only [SendTokensAccounts.load, bind_eq_ok, constrain_eq_ok, loadSplMint_eq_ok,
    loadSigner_eq_ok, checkProgram_eq_ok, findSeeds_eq_ok, checkTokenMint_eq_ok,
    checkAssociatedToken_eq_ok, pure_eq_ok, exists_const] at hload
  obtain ⟨chainId, hid, -, mint, ⟨hmint, -⟩, hsponsor, -, -, -, bump, -, source,
    ⟨hsource, -, hsourceMint⟩, fee, hfeeLoad, w₁, hdest, t, hata, ⟨n, w₂⟩, hnonce, rfl⟩ := hload
  dsimp only at hsigner hchain
  refine ⟨signed, m, source, mint, n, amount, fee, w₁, w₂, w₃, w₄, ?_⟩
  exact {
    intent := hsigned
    parsed := hparsed
    chain := hchain ▸ loadChainId_spec hid
    token := htoken
    source_at := hsource
    source_owner := hsigner.symm
    source_mint := hsourceMint
    mint_at := hmint
    recipient := hrecipient
    sponsor := hsponsor
    destination_init := initAssociatedTokenIfNeeded_spec hdest
    destination_ata := ⟨t, hata⟩
    nonce_loaded := hsigner ▸ loadNonce_spec hnonce
    next := hnext
    amount_eq := hamount
    fee_checked := hsigner ▸ feeAccounts_load_spec hfeeLoad
    transfer := inSessionTransferChecked_spec htransfer
    fee_collected := verifyAndCollectFee_spec hfee
    result := rfl }

/-- A successful `send_native`: `w₁` follows the creation of the nonce, `w₂` the transfer. -/
structure SendNativeSpec (K : Crates) (rt : IntentRuntime) (ctx : IntentContext)
    (accs : SendNativeAccounts) (w w' : IntentWorld) (signed : SignedIntent) (m : Message)
    (nonce amount : UInt64) (w₁ w₂ : IntentWorld) : Prop where
  intent : ctx.intent = .ok signed
  parsed : messageTryFrom K.intents signed.message = some m
  chain : K.chainIdOf (w.accounts accs.chainId).bytes = some m.chainId
  token : m.symbolOrMint = .symbol "FOGO"
  source : accs.source = signed.signer
  recipient : m.recipient = accs.destination
  nonce_loaded : NonceLoaded rt intentTransferNonceSeed signed.signer accs.nonce nonce w w₁
  next : m.nonce.toNat = nonce.toNat + 1
  amount_eq : K.tryUiAmountIntoAmount m.amount fogoDecimals = some amount
  transfer : ∃ bump, InvokedSigned rt programId ctx.toContext [intentTransferSeed, [bump]]
    (intentTransferIx accs.source accs.destination accs.intentTransferSetter amount) w₁ w₂
  result : w' = writeAccount accs.nonce (.nonce m.nonce) w₂

theorem sendNative_spec {ctx : IntentContext} {accs : SendNativeAccounts} {w w' : IntentWorld}
    (h : sendNative K rt ctx accs w = .ok w') :
    ∃ signed m nonce amount w₁ w₂,
      SendNativeSpec K rt ctx accs w w' signed m nonce amount w₁ w₂ := by
  simp only [sendNative, uiAmount, bind_eq_ok, require_eq_ok, liftOption_eq_ok,
    verifySignerMatchesSource_eq_ok, verifyAndUpdateNonce_eq_ok, pure_eq_ok, exists_const] at h
  obtain ⟨loaded, hload, ⟨m, signer⟩, hintent, hchain, htoken, hsigner, hrecipient, n,
    ⟨hnext, rfl⟩, amount, hamount, w₂, htransfer, rfl⟩ := h
  obtain ⟨signed, hsigned, rfl, hparsed⟩ := loadIntent_eq_ok.mp hintent
  simp only [SendNativeAccounts.load, bind_eq_ok, constrain_eq_ok, loadSplMint_eq_ok,
    loadSigner_eq_ok, checkProgram_eq_ok, findSeeds_eq_ok, pure_eq_ok, exists_const] at hload
  obtain ⟨chainId, hid, -, -, -, -, -, -, -, bump, -, -, -, ⟨n, w₁⟩, hnonce, rfl⟩ := hload
  dsimp only at hsigner hchain
  refine ⟨signed, m, n, amount, w₁, w₂, ?_⟩
  exact {
    intent := hsigned
    parsed := hparsed
    chain := hchain ▸ loadChainId_spec hid
    token := htoken
    source := hsigner.symm
    recipient := hrecipient
    nonce_loaded := hsigner ▸ loadNonce_spec hnonce
    next := hnext
    amount_eq := hamount
    transfer := ⟨_, invokeSigned_invoked htransfer⟩
    result := rfl }

end FogoYield.Intent
