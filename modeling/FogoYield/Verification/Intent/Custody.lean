import FogoYield.Verification.Intent.ReferenceChain

/-! # The tokens on their way to the bridge

Between two transactions no intermediate account exists, so the one of a bridge is created empty,
holds what was signed and nothing else, and is closed after the NTT manager took all of it. -/

namespace FogoYield.Intent

open FogoYield.Library FogoYield.Solana

variable {K : Crates} {rt : IntentRuntime}

/-! ## Addresses derived for the program -/

theorem derived_find (hl : rt.AddressLaws) (seeds : List Bytes) :
    Derived rt (rt.findProgramAddress seeds programId).1 :=
  ⟨_, hl.create_find seeds programId⟩

/-- A call that the seeds of another address sign for is not signed by this one. -/
theorem not_signs (hl : rt.AddressLaws) {ctx : Context} (hctx : SignedByOthers rt ctx)
    {K : List SeedKind} {seeds seeds' : List Bytes} {ix : Instruction}
    (hs : SignedBy rt programId ctx seeds ix) (hfits : Fits K seeds')
    (hwidth : seeds.flatten.length ≠ (K.map SeedKind.width).sum + 1)
    (hne : seeds.length ≠ seeds'.length + 1) :
    ¬ ix.Signs (rt.findProgramAddress seeds' programId).1 := by
  intro hsigns
  rcases hs _ hsigns with hmem | hcreate
  · exact hctx _ hmem (derived_find hl seeds')
  · have htold : Told (seeds.map .text) (K ++ [.number 1]) := by
      apply told_of_width
      simpa [SeedKind.width, Function.comp_def, List.length_flatten] using hwidth
    have heq := hl.create_inj htold (fits_texts seeds) (fits_bump hfits _) hcreate
      (hl.create_find seeds' programId)
    exact hne (by rw [heq, List.length_append, List.length_singleton])

/-- The seeds sign for no intermediate account: they are neither as long nor as many as its own. -/
def NotIntermediate (seeds : List Bytes) : Prop := seeds.flatten.length ≠ 56 ∧ seeds.length ≠ 3

@[simp] theorem notIntermediate_nil : NotIntermediate [] := ⟨by decide, by decide⟩

@[simp] theorem notIntermediate_programSigner (bump : UInt8) :
    NotIntermediate [programSignerSeed, [bump]] :=
  ⟨show 28 ≠ 56 by decide, by simp⟩

@[simp] theorem notIntermediate_setter (bump : UInt8) :
    NotIntermediate [intentTransferSeed, [bump]] :=
  ⟨show 16 ≠ 56 by decide, by simp⟩

theorem intermediateKey_inj (hl : rt.AddressLaws) {s s' : Pubkey}
    (h : intermediateKey rt s = intermediateKey rt s') : s = s' := by
  exact (keyed_inj hl h).2

theorem intermediateKey_ne_nonceKey (hl : rt.AddressLaws) (s owner : Pubkey) (rail : Rail) :
    intermediateKey rt s ≠ nonceKey rt rail.seed owner := by
  intro h
  obtain ⟨htag, -⟩ := keyed_inj hl h
  cases rail <;> exact absurd htag (by decide)

theorem intermediateKey_ne_ata (hl : rt.AddressLaws) (s wallet mint tp : Pubkey) :
    intermediateKey rt s ≠ rt.ata wallet mint tp := by
  intro h
  exact absurd (hl.find_program h) (by decide)

theorem intermediateKey_ne_config (hl : rt.AddressLaws) (s : Pubkey) {ctx : Context}
    {accs : ConfigAccounts} {seeds : List Bytes} {d : IntentData} {act : Action}
    (ha : act.configured = some (ctx, accs, seeds, d))
    (hk : accs.config = (rt.findProgramAddress seeds programId).1) :
    intermediateKey rt s ≠ accs.config := by
  intro he
  cases act with
  | registerNttConfig ctx accs nttManager =>
      cases ha
      have htag : bridgeNttIntermediateSeed = expectedNttConfigSeed :=
        (keyed_inj hl (he.trans hk)).1
      exact absurd htag (by decide)
  | registerFeeConfig ctx accs feeConfig =>
      cases ha
      have htag : bridgeNttIntermediateSeed = feeConfigSeed := (keyed_inj hl (he.trans hk)).1
      exact absurd htag (by decide)
  | updateFeeConfig ctx accs feeConfig =>
      cases ha
      have htag : bridgeNttIntermediateSeed = feeConfigSeed := (keyed_inj hl (he.trans hk)).1
      exact absurd htag (by decide)
  | _ => cases ha

/-! ## Unused intermediate accounts -/

/-- What leaves the intermediate account of `source` unused, if it was. -/
def KeepsUnused (rt : IntentRuntime) (source : Pubkey) (w w' : IntentWorld) : Prop :=
  Unused w.accounts (intermediateKey rt source) → Unused w'.accounts (intermediateKey rt source)

theorem keepsUnused_of_others {source k : Pubkey} {w w' : IntentWorld}
    (hothers : ∀ j, j ≠ k → SameData w.accounts w'.accounts j)
    (hk : intermediateKey rt source ≠ k) : KeepsUnused rt source w w' :=
  fun h => .of_sameData (hothers _ hk) h

theorem keepsUnused_of_call (hl : Lawful rt) {source : Pubkey} {ctx : Context}
    (hctx : SignedByOthers rt ctx) {seeds : List Bytes} {ix : Instruction} {w w' : IntentWorld}
    (h : InvokedSigned rt programId ctx seeds ix w w') (hne : ix.programId ≠ programId)
    (hseeds : NotIntermediate seeds) : KeepsUnused rt source w w' := by
  have hfits : Fits (keyedShape bridgeNttIntermediateSeed) (intermediateSeeds source) :=
    fits_keyed bridgeNttIntermediateSeed source
  have hsigns : ¬ ix.Signs (intermediateKey rt source) :=
    not_signs hl.address hctx h.signed hfits hseeds.1 hseeds.2
  exact hl.cpi.unused h.call.invoked hne
    (hl.address.create_find (intermediateSeeds source) programId) hsigns

theorem keepsUnused_of_nonce (hl : rt.AddressLaws) {source owner k : Pubkey} {rail : Rail}
    {n : UInt64} {w w' : IntentWorld} (h : NonceLoaded rt rail.seed owner k n w w') :
    KeepsUnused rt source w w' := by
  rcases h.init with hcreate | ⟨rfl, -⟩
  · exact keepsUnused_of_others hcreate.others
      (h.address ▸ intermediateKey_ne_nonceKey hl source owner rail)
  · exact id

theorem keepsUnused_of_write (hl : rt.AddressLaws) {source owner k : Pubkey} {rail : Rail}
    (hk : k = nonceKey rt rail.seed owner) (d : IntentData) (w : IntentWorld) :
    KeepsUnused rt source w (writeAccount k d w) :=
  keepsUnused_of_others (fun _ hj => writeAccount_others d w hj)
    (hk ▸ intermediateKey_ne_nonceKey hl source owner rail)

theorem SendTokensSpec.keepsUnused (hl : Lawful rt) {ctx : IntentContext}
    (hctx : SignedByOthers rt ctx.toContext) {accs : SendTokensAccounts} {w w' : IntentWorld}
    {signed : SignedIntent} {m : Message} {source : TokenAccount} {mint : Mint}
    {nonce amount : UInt64} {fee : FeeLoaded} {w₁ w₂ w₃ w₄ : IntentWorld}
    (h : SendTokensSpec K rt ctx accs w w' signed m source mint nonce amount fee w₁ w₂ w₃ w₄)
    (s : Pubkey) : KeepsUnused rt s w w' := by
  intro hunused
  have hnonce : NonceLoaded rt Rail.intrachain.seed signed.signer accs.nonce nonce w₁ w₂ :=
    h.nonce_loaded
  have hopened : Unused w₁.accounts (intermediateKey rt s) := by
    rcases h.destination_init with hcreate | rfl
    · obtain ⟨t, hata⟩ := h.destination_ata
      exact keepsUnused_of_others hcreate.others
        (hata.address ▸ intermediateKey_ne_ata hl.address s _ _ _) hunused
    · exact hunused
  have hcounted := keepsUnused_of_nonce hl.address hnonce hopened
  have hmoved := keepsUnused_of_call hl hctx h.transfer tokenProgram_ne (by simp) hcounted
  have hpaid :=
    keepsUnused_of_call hl hctx h.fee_collected.transfer tokenProgram_ne (by simp) hmoved
  rw [h.result]
  exact keepsUnused_of_write hl.address hnonce.address _ _ hpaid

theorem SendNativeSpec.keepsUnused (hl : Lawful rt) {ctx : IntentContext}
    (hctx : SignedByOthers rt ctx.toContext) {accs : SendNativeAccounts} {w w' : IntentWorld}
    {signed : SignedIntent} {m : Message} {nonce amount : UInt64} {w₁ w₂ : IntentWorld}
    (h : SendNativeSpec K rt ctx accs w w' signed m nonce amount w₁ w₂) (s : Pubkey) :
    KeepsUnused rt s w w' := by
  intro hunused
  have hnonce : NonceLoaded rt Rail.intrachain.seed signed.signer accs.nonce nonce w w₁ :=
    h.nonce_loaded
  obtain ⟨bump, htransfer⟩ := h.transfer
  have hcounted := keepsUnused_of_nonce hl.address hnonce hunused
  have hmoved := keepsUnused_of_call hl hctx htransfer systemProgram_ne (by simp) hcounted
  rw [h.result]
  exact keepsUnused_of_write hl.address hnonce.address _ _ hmoved

theorem unused_of_closed {k dest : Pubkey} {t : TokenAccount} {a a' : IntentAccounts}
    (h : ClosedSpec k dest t a a') : Unused a' k := by
  rw [Unused, h.closed]
  exact ⟨rfl, rfl⟩

section

variable {ctx : IntentContext} {accs : BridgeNttTokensAccounts} {args : BridgeNttTokensArgs}
variable {w w' : IntentWorld} {signed : SignedIntent} {m : NttMessage}
variable {source intermediate : TokenAccount} {mint : Mint} {nonce : UInt64} {fee : FeeLoaded}
variable {setterBump : UInt8} {toChainId : WormholeChainId} {transferArgs : TransferArgs}
variable {st : BridgeStates}

theorem BridgeSpec.address
    (h : BridgeSpec K rt ctx accs args w w' signed m source intermediate mint nonce fee setterBump
      toChainId transferArgs st) :
    accs.intermediateTokenAccount = intermediateKey rt accs.source :=
  h.intermediate_loaded.address

/-- The calls of a bridge before its account is closed leave the account of another source
unused. -/
theorem BridgeSpec.keepsUnused_relayed (hl : Lawful rt) (hctx : SignedByOthers rt ctx.toContext)
    (hmanager : accs.ntt.nttManager ≠ programId)
    (h : BridgeSpec K rt ctx accs args w w' signed m source intermediate mint nonce fee setterBump
      toChainId transferArgs st) {s : Pubkey} (hs : s ≠ accs.source) :
    KeepsUnused rt s w st.relayed := by
  intro hunused
  have hnonce : NonceLoaded rt Rail.bridge.seed signed.signer accs.nonce nonce st.opened
      st.counted := h.nonce_loaded
  have hopened : Unused st.opened.accounts (intermediateKey rt s) := by
    rcases h.intermediate_loaded.init with hcreate | ⟨heq, -⟩
    · refine keepsUnused_of_others hcreate.others ?_ hunused
      rw [h.address]
      exact fun he => hs (intermediateKey_inj hl.address he)
    · rw [heq]
      exact hunused
  obtain ⟨relayArgs, -, hrelay⟩ := h.relayed.relay
  have hcounted := keepsUnused_of_nonce hl.address hnonce hopened
  have hfunded := keepsUnused_of_call hl hctx h.transfer tokenProgram_ne (by simp) hcounted
  have happroved := keepsUnused_of_call hl hctx h.approval tokenProgram_ne (by simp) hfunded
  have hburned := keepsUnused_of_call hl hctx h.relayed.burn hmanager (by simp) happroved
  have hreleased := keepsUnused_of_call hl hctx h.relayed.release hmanager (by simp) hburned
  exact keepsUnused_of_call hl hctx hrelay executor_ne (by simp) hreleased

/-- A bridge leaves no intermediate account behind, neither its own nor another one. -/
theorem BridgeSpec.keepsUnused (hl : Lawful rt) (hctx : SignedByOthers rt ctx.toContext)
    (hmanager : accs.ntt.nttManager ≠ programId)
    (h : BridgeSpec K rt ctx accs args w w' signed m source intermediate mint nonce fee setterBump
      toChainId transferArgs st) (s : Pubkey) : KeepsUnused rt s w w' := by
  intro hunused
  have hclosed : Unused st.closed.accounts (intermediateKey rt s) := by
    by_cases hs : s = accs.source
    · obtain ⟨t, hclosed⟩ := hl.rail.close h.closing.call.invoked
      rw [hs, ← h.address]
      exact unused_of_closed hclosed
    · exact keepsUnused_of_call hl hctx h.closing tokenProgram_ne (by simp)
        (h.keepsUnused_relayed hl hctx hmanager hs hunused)
  have hpaid :=
    keepsUnused_of_call hl hctx h.fee_collected.transfer tokenProgram_ne (by simp) hclosed
  have hnonce : NonceLoaded rt Rail.bridge.seed signed.signer accs.nonce nonce st.opened
      st.counted := h.nonce_loaded
  rw [h.result]
  exact keepsUnused_of_write hl.address hnonce.address _ _ hpaid

end

/-- No intermediate account exists. -/
def IntermediatesUnused (rt : IntentRuntime) (w : IntentWorld) : Prop :=
  ∀ source, Unused w.accounts (intermediateKey rt source)

theorem ConfigSpec.keepsUnused (hl : rt.AddressLaws) (act : Action) {ctx : Context}
    {accs : ConfigAccounts} {seeds : List Bytes} {d : IntentData} {w w' : IntentWorld}
    (ha : act.configured = some (ctx, accs, seeds, d))
    (h : ConfigSpec K rt ctx accs seeds d w w') (s : Pubkey) : KeepsUnused rt s w w' :=
  keepsUnused_of_others h.others (intermediateKey_ne_config hl s ha h.checked.address)

theorem intermediatesUnused_step (hl : Lawful rt) {w w' : IntentWorld} {act : Action}
    (hmanagers : ForeignManagers w) (hw : IntermediatesUnused rt w) (h : Step K rt w act w') :
    IntermediatesUnused rt w' := by
  intro s
  obtain ⟨hpossible, happly⟩ := h
  cases act with
  | sendTokens ctx accs =>
      obtain ⟨_, _, _, _, _, _, _, _, _, _, _, hspec⟩ := sendTokens_spec happly
      exact hspec.keepsUnused hl hpossible.1 s (hw s)
  | sendNative ctx accs =>
      obtain ⟨_, _, _, _, _, _, hspec⟩ := sendNative_spec happly
      exact hspec.keepsUnused hl hpossible.1 s (hw s)
  | bridgeNttTokens ctx accs args =>
      obtain ⟨_, _, _, _, _, _, _, _, _, _, _, hspec⟩ := bridgeNttTokens_spec happly
      exact hspec.keepsUnused hl hpossible.1 (hmanagers _ _ hspec.manager) s (hw s)
  | registerNttConfig ctx accs nttManager =>
      exact (registerNttConfig_spec happly).keepsUnused hl.address
        (.registerNttConfig ctx accs nttManager) rfl s (hw s)
  | registerFeeConfig ctx accs feeConfig =>
      exact (registerFeeConfig_spec happly).keepsUnused hl.address
        (.registerFeeConfig ctx accs feeConfig) rfl s (hw s)
  | updateFeeConfig ctx accs feeConfig =>
      exact (updateFeeConfig_spec happly).keepsUnused hl.address
        (.updateFeeConfig ctx accs feeConfig) rfl s (hw s)
  | external ix =>
      simp only [Action.apply, runExternal] at happly
      split at happly
      · rename_i a ha
        obtain rfl := Except.ok.inj happly
        have hderived := hl.address.create_find (intermediateSeeds s) programId
        exact hl.cpi.unused ha hpossible.1 hderived (hpossible.2 _ ⟨_, hderived⟩) (hw s)
      · cases happly
  | tick clock =>
      obtain rfl := Except.ok.inj happly
      exact hw s

theorem Genesis.intermediatesUnused (hl : rt.AddressLaws) {w : IntentWorld} (h : Genesis rt w) :
    IntermediatesUnused rt w :=
  fun source => h.unused _ (derived_find hl (intermediateSeeds source))

/-- What holds between two transactions. -/
def Settled (rt : IntentRuntime) (w : IntentWorld) : Prop :=
  ForeignManagers w ∧ IntermediatesUnused rt w

theorem settled_of_run (hl : Lawful rt) {w₀ w : IntentWorld} {ts : List IntentTransition}
    (h₀ : Genesis rt w₀) (hr : IntentRun K rt w₀ ts w) : Settled rt w :=
  hr.invariant ⟨h₀.foreignManagers, h₀.intermediatesUnused hl.address⟩
    (fun _ _ _ hw hstep => ⟨foreignManagers_step hl hw.1 hstep,
      intermediatesUnused_step hl hw.1 hw.2 hstep⟩)

/-! ## What the NTT manager is handed -/

/-- The account as the manager's calls find it: the signed amount, all of it delegated. -/
def handed (rt : IntentRuntime) (mint session : Pubkey) (amount : UInt64) : TokenAccount where
  mint := mint
  owner := setterKey rt
  amount := amount
  delegate := some session
  delegatedAmount := amount
  closeAuthority := none

section

variable {ctx : IntentContext} {accs : BridgeNttTokensAccounts} {args : BridgeNttTokensArgs}
variable {w w' : IntentWorld} {signed : SignedIntent} {m : NttMessage}
variable {source intermediate : TokenAccount} {mint : Mint} {nonce : UInt64} {fee : FeeLoaded}
variable {setterBump : UInt8} {toChainId : WormholeChainId} {transferArgs : TransferArgs}
variable {st : BridgeStates}

/-- An intermediate account that did not exist is created empty, and the nonce leaves it so. -/
theorem BridgeSpec.created (hl : rt.AddressLaws)
    (h : BridgeSpec K rt ctx accs args w w' signed m source intermediate mint nonce fee setterBump
      toChainId transferArgs st) (hunused : Unused w.accounts accs.intermediateTokenAccount) :
    tokenAt st.counted.accounts accs.intermediateTokenAccount =
      some ⟨accs.mint, accs.intentTransferSetter, 0, none, 0, none⟩ := by
  have hopened : tokenAt st.opened.accounts accs.intermediateTokenAccount =
      some ⟨accs.mint, accs.intentTransferSetter, 0, none, 0, none⟩ := by
    rcases h.intermediate_loaded.init with hcreate | ⟨-, hne⟩
    · exact tokenAt_eq_some.mpr ⟨.inl hcreate.owner_eq, hcreate.data_eq⟩
    · exact absurd hunused.1 hne
  have hnonce : NonceLoaded rt Rail.bridge.seed signed.signer accs.nonce nonce st.opened
      st.counted := h.nonce_loaded
  have hne : accs.intermediateTokenAccount ≠ accs.nonce := by
    rw [h.address, hnonce.address]
    exact intermediateKey_ne_nonceKey hl _ _ _
  rcases hnonce.init with hcreate | ⟨heq, -⟩
  · exact (hcreate.others _ hne).tokenAt.trans hopened
  · rw [heq]
    exact hopened

/-- The account the manager's calls find is `handed`. -/
theorem BridgeSpec.handed (hl : Lawful rt)
    (h : BridgeSpec K rt ctx accs args w w' signed m source intermediate mint nonce fee setterBump
      toChainId transferArgs st) (hunused : Unused w.accounts accs.intermediateTokenAccount) :
    tokenAt st.approved.accounts accs.intermediateTokenAccount =
      some (Intent.handed rt accs.mint accs.ntt.nttSessionAuthority transferArgs.amount) := by
  have hcreated := h.created hl.address hunused
  have hne : accs.source ≠ accs.intermediateTokenAccount := by
    intro he
    have hsource := h.source_at
    rw [he, hunused.tokenAt_none] at hsource
    cases hsource
  have hfunded : tokenAt st.funded.accounts accs.intermediateTokenAccount =
      some ⟨accs.mint, accs.intentTransferSetter, transferArgs.amount, none, 0, none⟩ := by
    cases hl.rail.transfer h.transfer.call.invoked with
    | within hsame => exact absurd hsame hne
    | between s s' d _ hspec =>
        have hd := hspec.dest_at
        rw [hcreated] at hd
        obtain rfl := Option.some.inj hd
        rw [hspec.dest_after]
        simp
  obtain ⟨s, hprogram, hs, -, happroved⟩ :=
    approve_spec (hl.rail.approve h.approval.call.invoked)
  rw [hfunded] at hs
  obtain rfl := Option.some.inj hs
  rw [happroved, tokenAt_setToken_self _ (.inl hprogram), key_of_find h.setter]
  rfl

/-- A call of another program, not signed for with any seeds, keeps what the setter holds. -/
theorem keeps_of_call (hl : Lawful rt) {c : Context} (hctx : SignedByOthers rt c)
    {ix : Instruction} {u v : IntentWorld} (h : InvokedSigned rt programId c [] ix u v)
    (hne : ix.programId ≠ programId) {k : Pubkey} {t : TokenAccount}
    (ht : tokenAt u.accounts k = some t) (howner : t.owner = setterKey rt)
    (hclose : t.closeAuthority = none) :
    ∃ t', tokenAt v.accounts k = some t' ∧ t.Guarded t' := by
  have hderived : rt.createProgramAddress _ programId = some (setterKey rt) :=
    hl.address.create_find [intentTransferSeed] programId
  have hsigns : ¬ ix.Signs t.owner := by
    rw [howner]
    have hfits : Fits [.text intentTransferSeed] [intentTransferSeed] := by simp
    exact not_signs hl.address hctx h.signed hfits (by decide) (by decide)
  obtain ⟨t', ht', hguarded, -⟩ :=
    hl.cpi.guarded h.call.invoked hne k t ht ⟨_, howner.symm ▸ hderived⟩ hsigns hclose
  exact ⟨t', ht', hguarded⟩

/-- What the manager and the executor leave of the account, which they reach through the
delegation only. -/
theorem BridgeSpec.guarded (hl : Lawful rt) (hctx : SignedByOthers rt ctx.toContext)
    (hmanager : accs.ntt.nttManager ≠ programId)
    (h : BridgeSpec K rt ctx accs args w w' signed m source intermediate mint nonce fee setterBump
      toChainId transferArgs st) (hunused : Unused w.accounts accs.intermediateTokenAccount) :
    ∃ t, tokenAt st.relayed.accounts accs.intermediateTokenAccount = some t ∧
      (Intent.handed rt accs.mint accs.ntt.nttSessionAuthority transferArgs.amount).Guarded t := by
  obtain ⟨relayArgs, -, hrelay⟩ := h.relayed.relay
  obtain ⟨t₁, ht₁, hg₁⟩ :=
    keeps_of_call hl hctx h.relayed.burn hmanager (h.handed hl hunused) rfl rfl
  obtain ⟨t₂, ht₂, hg₂⟩ :=
    keeps_of_call hl hctx h.relayed.release hmanager ht₁ hg₁.owner hg₁.closeAuthority
  have hg : (Intent.handed rt accs.mint accs.ntt.nttSessionAuthority
      transferArgs.amount).Guarded t₂ := hg₁.trans hg₂
  obtain ⟨t₃, ht₃, hg₃⟩ := keeps_of_call hl hctx hrelay executor_ne ht₂ hg.owner hg.closeAuthority
  exact ⟨t₃, ht₃, hg.trans hg₃⟩

/-- A token account of which all is delegated is emptied only through the whole delegation. -/
theorem spent_of_guarded {t t' : TokenAccount} (h : t.Guarded t')
    (hall : t.delegatedAmount = t.amount) (hempty : t'.amount = 0) : t'.delegatedAmount = 0 := by
  have hcovered := h.covered
  rw [hall, hempty, UInt64.toNat_zero] at hcovered
  apply UInt64.toNat_inj.mp
  rw [UInt64.toNat_zero]
  omega

end

/-- The arguments of the manager's call are what the message of the signer states. -/
structure StatedArgs (K : Crates) (rt : IntentRuntime) (signed : SignedIntent) (m : NttMessage)
    (mint : Mint) (toChainId : WormholeChainId) (transferArgs : TransferArgs) : Prop where
  amount : K.tryUiAmountIntoAmount m.amount mint.decimals = some transferArgs.amount
  to_chain : convertChainIdToWormhole m.toChainId = some toChainId
  recipient_chain : transferArgs.recipientChain = toChainId.toU16
  recipient : resolveRecipient (addresses rt) m.recipient signed.signer =
    some transferArgs.recipientAddress
  not_queued : transferArgs.shouldQueue = false

/-- The intermediate account during a bridge: it did not exist before and does not after, and the
calls of the manager and the executor take exactly the amount of `transferArgs` out of it. -/
structure PassedOn (rt : IntentRuntime) (ctx : Context) (accs : BridgeNttTokensAccounts)
    (args : BridgeNttTokensArgs) (toChainId : WormholeChainId) (transferArgs : TransferArgs)
    (w before after w' : IntentWorld) : Prop where
  unused_before : Unused w.accounts (intermediateKey rt accs.source)
  handed : tokenAt before.accounts (intermediateKey rt accs.source) =
    some (Intent.handed rt accs.mint accs.ntt.nttSessionAuthority transferArgs.amount)
  calls : ∃ u v, BurnedAndRelayed rt ctx accs args toChainId transferArgs before u v after
  /-- Wrapped native tokens can be closed with a balance, which the sponsor would get. -/
  taken : accs.mint ≠ nativeMint → ∃ t,
    tokenAt after.accounts (intermediateKey rt accs.source) = some t ∧ t.amount = 0 ∧
      t.delegatedAmount = 0
  unused_after : Unused w'.accounts (intermediateKey rt accs.source)

end FogoYield.Intent
