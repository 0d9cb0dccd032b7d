import FogoYield.Verification.Intent.ReferenceChain

/-! # The burns the program has ever asked for

`transfer_burn` is the call that turns tokens into a message to another chain. The program asks an
NTT manager for one exactly when it executes a bridge message, and for what that message says. -/

namespace FogoYield.Intent

open FogoYield.Library FogoYield.Solana

variable {K : Crates} {rt : IntentRuntime}

def Action.isBridge : Action → Bool
  | .bridgeNttTokens .. => true
  | _ => false

/-- `ix` is the burn that the signed message behind a transition stands for: at the manager
registered for the mint, of the signed amount, from an account of the signer, for the recipient
that the message resolves to on Solana. -/
structure BurnFor (K : Crates) (rt : IntentRuntime) (tr : IntentTransition) (ix : Instruction)
    (ctx : IntentContext) (accs : BridgeNttTokensAccounts) (args : BridgeNttTokensArgs)
    (signed : SignedIntent) (m : NttMessage) (source : TokenAccount) (mint : Mint)
    (transferArgs : TransferArgs) : Prop where
  action : tr.act = .bridgeNttTokens ctx accs args
  intent : ctx.intent = .ok signed
  parsed : bridgeMessageTryFrom K.intents signed.message = some (.ntt m)
  burn : ix = transferBurnIx accs transferArgs
  manager : programAt programId tr.pre.accounts
    (rt.findProgramAddress [expectedNttConfigSeed, accs.mint.bytes] programId).1 =
      some (.expectedNttConfig ix.programId)
  source_at : tokenAt tr.pre.accounts accs.source = some source
  source_owner : source.owner = signed.signer
  source_mint : source.mint = accs.mint
  mint_at : mintAt tr.pre.accounts accs.mint = some mint
  amount : K.tryUiAmountIntoAmount m.amount mint.decimals = some transferArgs.amount
  to_chain : m.toChainId = "solana"
  recipient_chain : transferArgs.recipientChain = 1
  recipient : resolveRecipient (addresses rt) m.recipient signed.signer =
    some transferArgs.recipientAddress
  not_queued : transferArgs.shouldQueue = false

/-- The burn `ix` is what the bridge message behind `tr` asks for. -/
def Asks (K : Crates) (rt : IntentRuntime) (tr : IntentTransition) (ix : Instruction) : Prop :=
  ∃ ctx accs args signed m source mint transferArgs,
    BurnFor K rt tr ix ctx accs args signed m source mint transferArgs

/-- A relay is computed for Solana only. -/
theorem toChain_of_relay {toChainId : WormholeChainId} {bytes : Bytes} {rent : Bool}
    {relayArgs : RelayNttMessageArgs} (h : computeRelayNttArgs toChainId bytes rent = .ok relayArgs) :
    toChainId = .solana := by
  cases toChainId with
  | solana => rfl
  | fogo => cases h

theorem text_of_solana {chainId : String} (h : convertChainIdToWormhole chainId = some .solana) :
    chainId = "solana" := by
  unfold convertChainIdToWormhole at h
  split at h
  · assumption
  · split at h <;> cases h

section

variable {ctx : IntentContext} {accs : BridgeNttTokensAccounts} {args : BridgeNttTokensArgs}
variable {w w' : IntentWorld} {signed : SignedIntent} {m : NttMessage}
variable {source intermediate : TokenAccount} {mint : Mint} {nonce : UInt64} {fee : FeeLoaded}
variable {setterBump : UInt8} {toChainId : WormholeChainId} {transferArgs : TransferArgs}
variable {st : BridgeStates}

theorem BridgeSpec.burnFor
    (h : BridgeSpec K rt ctx accs args w w' signed m source intermediate mint nonce fee setterBump
      toChainId transferArgs st) :
    BurnFor K rt ⟨w, .bridgeNttTokens ctx accs args, w'⟩ (transferBurnIx accs transferArgs) ctx accs
      args signed m source mint transferArgs := by
  obtain ⟨relayArgs, hrelay, -⟩ := h.relayed.relay
  obtain rfl := toChain_of_relay hrelay
  exact {
    action := rfl
    intent := h.intent
    parsed := h.parsed
    burn := rfl
    manager := h.expected ▸ h.manager
    source_at := h.source_at
    source_owner := h.source_owner
    source_mint := h.source_mint
    mint_at := h.mint_at
    amount := h.amount
    to_chain := text_of_solana h.to_chain
    recipient_chain := h.recipient_chain
    recipient := h.recipient
    not_queued := h.not_queued }

theorem NonceLoaded.cpis_eq {seed : Bytes} {owner k : Pubkey} {n : UInt64} {u v : IntentWorld}
    (h : NonceLoaded rt seed owner k n u v) : v.cpis = u.cpis := by
  rcases h.init with hcreate | ⟨rfl, -⟩
  · exact hcreate.cpis_eq
  · rfl

theorem cpis_of_init {k owner : Pubkey} {data : Data IntentData} {u v : IntentWorld}
    (h : CreateSpec k owner data u v ∨ v = u) : v.cpis = u.cpis := by
  rcases h with hcreate | rfl
  · exact hcreate.cpis_eq
  · rfl

/-- A bridge calls seven times, and the third call is the burn. -/
theorem BridgeSpec.cpis_eq
    (h : BridgeSpec K rt ctx accs args w w' signed m source intermediate mint nonce fee setterBump
      toChainId transferArgs st) :
    ∃ relayArgs, w'.cpis = w.cpis ++
      [inSessionTransferIx tokenProgram accs.source accs.mint accs.intermediateTokenAccount
          accs.signerOrSession accs.programSigner transferArgs.amount mint.decimals,
        approveIx tokenProgram accs.intermediateTokenAccount accs.ntt.nttSessionAuthority
          accs.intentTransferSetter transferArgs.amount,
        transferBurnIx accs transferArgs, releaseWormholeOutboundIx accs true,
        relayNttMessageIx accs relayArgs,
        closeAccountIx tokenProgram accs.intermediateTokenAccount accs.sponsor
          accs.intentTransferSetter,
        inSessionTransferIx tokenProgram accs.feeSource accs.feeMint accs.feeDestination
          accs.signerOrSession accs.programSigner fee.config.bridgeTransferFee fee.mint.decimals] := by
  obtain ⟨relayArgs, -, hrelay⟩ := h.relayed.relay
  refine ⟨relayArgs, ?_⟩
  have hopened : st.opened.cpis = w.cpis :=
    cpis_of_init (h.intermediate_loaded.init.imp_right And.left)
  rw [h.result]
  simp only [writeAccount, World.setAccount, h.fee_collected.transfer.call.cpis_eq,
    h.closing.call.cpis_eq, hrelay.call.cpis_eq, h.relayed.release.call.cpis_eq,
    h.relayed.burn.call.cpis_eq, h.approval.call.cpis_eq, h.transfer.call.cpis_eq,
    h.nonce_loaded.cpis_eq, hopened, List.append_assoc, List.cons_append, List.nil_append]

end

/-! ## Which calls are burns -/

@[simp] theorem isTransferBurn_transferBurnIx (accs : BridgeNttTokensAccounts)
    (args : TransferArgs) : isTransferBurn (transferBurnIx accs args) = true := by
  simp [isTransferBurn, transferBurnIx, List.isPrefixOf_iff_prefix]

@[simp] theorem isTransferBurn_inSessionTransferIx (tp source mint dest authority signer : Pubkey)
    (amount : UInt64) (decimals : UInt8) :
    isTransferBurn (inSessionTransferIx tp source mint dest authority signer amount decimals) =
      false := by
  rfl

@[simp] theorem isTransferBurn_approveIx (tp source delegate owner : Pubkey) (amount : UInt64) :
    isTransferBurn (approveIx tp source delegate owner amount) = false := by
  rfl

@[simp] theorem isTransferBurn_releaseWormholeOutboundIx (accs : BridgeNttTokensAccounts)
    (revert : Bool) : isTransferBurn (releaseWormholeOutboundIx accs revert) = false := by
  rfl

@[simp] theorem isTransferBurn_relayNttMessageIx (accs : BridgeNttTokensAccounts)
    (args : RelayNttMessageArgs) : isTransferBurn (relayNttMessageIx accs args) = false := by
  rfl

@[simp] theorem isTransferBurn_closeAccountIx (tp account dest authority : Pubkey) :
    isTransferBurn (closeAccountIx tp account dest authority) = false := by
  rfl

@[simp] theorem isTransferBurn_intentTransferIx (source dest setter : Pubkey) (amount : UInt64) :
    isTransferBurn (intentTransferIx source dest setter amount) = false := by
  rfl

/-! ## Steps and runs -/

theorem SendTokensSpec.cpis_eq {ctx : IntentContext} {accs : SendTokensAccounts}
    {w w' : IntentWorld} {signed : SignedIntent} {m : Message} {source : TokenAccount} {mint : Mint}
    {nonce amount : UInt64} {fee : FeeLoaded} {w₁ w₂ w₃ w₄ : IntentWorld}
    (h : SendTokensSpec K rt ctx accs w w' signed m source mint nonce amount fee w₁ w₂ w₃ w₄) :
    w'.cpis = w.cpis ++
      [inSessionTransferIx tokenProgram accs.source accs.mint accs.destination accs.signerOrSession
          accs.programSigner amount mint.decimals,
        inSessionTransferIx tokenProgram accs.feeSource accs.feeMint accs.feeDestination
          accs.signerOrSession accs.programSigner fee.config.intrachainTransferFee
          fee.mint.decimals] := by
  rw [h.result]
  simp only [writeAccount, World.setAccount, h.fee_collected.transfer.call.cpis_eq,
    h.transfer.call.cpis_eq, h.nonce_loaded.cpis_eq, cpis_of_init h.destination_init,
    List.append_assoc, List.cons_append, List.nil_append]

theorem SendNativeSpec.cpis_eq {ctx : IntentContext} {accs : SendNativeAccounts}
    {w w' : IntentWorld} {signed : SignedIntent} {m : Message} {nonce amount : UInt64}
    {w₁ w₂ : IntentWorld}
    (h : SendNativeSpec K rt ctx accs w w' signed m nonce amount w₁ w₂) :
    w'.cpis = w.cpis ++
      [intentTransferIx accs.source accs.destination accs.intentTransferSetter amount] := by
  obtain ⟨bump, htransfer⟩ := h.transfer
  rw [h.result]
  simp only [writeAccount, World.setAccount, htransfer.call.cpis_eq, h.nonce_loaded.cpis_eq]

/-- A bridge adds the burn of its message, and no other step adds one. -/
theorem step_burns {w w' : IntentWorld} {act : Action} (h : Step K rt w act w') :
    if act.isBridge then ∃ ix, Asks K rt ⟨w, act, w'⟩ ix ∧ burns w' = burns w ++ [ix]
    else burns w' = burns w := by
  obtain ⟨-, happly⟩ := h
  cases act with
  | sendTokens ctx accs =>
      obtain ⟨_, _, _, _, _, _, _, _, _, _, _, hspec⟩ := sendTokens_spec happly
      simp [Action.isBridge, burns, hspec.cpis_eq]
  | sendNative ctx accs =>
      obtain ⟨_, _, _, _, _, _, hspec⟩ := sendNative_spec happly
      simp [Action.isBridge, burns, hspec.cpis_eq]
  | bridgeNttTokens ctx accs args =>
      obtain ⟨_, _, _, _, _, _, _, _, _, _, _, hspec⟩ := bridgeNttTokens_spec happly
      obtain ⟨relayArgs, hcpis⟩ := hspec.cpis_eq
      rw [Action.isBridge, if_pos rfl]
      refine ⟨_, ⟨_, _, _, _, _, _, _, _, hspec.burnFor⟩, ?_⟩
      simp [burns, hcpis]
  | registerNttConfig ctx accs nttManager =>
      simp [Action.isBridge, burns, (registerNttConfig_spec happly).cpis_eq]
  | registerFeeConfig ctx accs feeConfig =>
      simp [Action.isBridge, burns, (registerFeeConfig_spec happly).cpis_eq]
  | updateFeeConfig ctx accs feeConfig =>
      simp [Action.isBridge, burns, (updateFeeConfig_spec happly).cpis_eq]
  | external ix =>
      simp only [Action.apply, runExternal] at happly
      split at happly
      · obtain rfl := Except.ok.inj happly
        simp [Action.isBridge, burns]
      · cases happly
  | tick clock =>
      obtain rfl := Except.ok.inj happly
      simp [Action.isBridge, burns]

/-- Over any run, the burns the program asked for are those of the bridge messages it executed,
one for each, in their order and on their terms. -/
theorem burns_of_run {w₀ w : IntentWorld} {ts : List IntentTransition}
    (hr : IntentRun K rt w₀ ts w) :
    ∃ asked, burns w = burns w₀ ++ asked ∧
      List.Forall₂ (Asks K rt) (ts.filter (fun tr => tr.act.isBridge)) asked := by
  induction hr with
  | nil => exact ⟨[], by simp, .nil⟩
  | @snoc u v act ts _ hst ih =>
      obtain ⟨asked, hasked, hfor⟩ := ih
      have hstep := step_burns hst
      rw [List.filter_append, List.filter_singleton]
      cases hbridge : act.isBridge with
      | true =>
          rw [if_pos hbridge] at hstep
          obtain ⟨ix, hix, hburns⟩ := hstep
          refine ⟨asked ++ [ix], by rw [hburns, hasked, List.append_assoc], ?_⟩
          exact List.rel_append hfor (.cons hix .nil)
      | false =>
          rw [hbridge, if_neg Bool.false_ne_true] at hstep
          refine ⟨asked, hstep.trans hasked, ?_⟩
          simpa using hfor

end FogoYield.Intent
