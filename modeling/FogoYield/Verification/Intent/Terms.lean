import FogoYield.Verification.Intent.Custody

/-! # Who sets the terms

The fee of a message, the account it goes to and the NTT manager of a mint are in configs that only
the upgrade authority writes. From genesis on, each of them is what that authority signed last. -/

namespace FogoYield.Intent

open FogoYield.Library FogoYield.Solana

variable {K : Crates} {rt : IntentRuntime}

/-- A transition whose instruction the upgrade authority of its day signed, and which wrote `d` at
`k`. -/
def Registers (K : Crates) (rt : IntentRuntime) (k : Pubkey) (d : IntentData)
    (tr : IntentTransition) : Prop :=
  ∃ ctx accs seeds, tr.act.configured = some (ctx, accs, seeds, d) ∧ accs.config = k ∧
    Authorized K rt ctx accs.signer accs.programData tr.pre

/-- No config instruction for the account at `k`. -/
def LeavesConfig (k : Pubkey) (tr : IntentTransition) : Prop :=
  ∀ ctx accs seeds d, tr.act.configured = some (ctx, accs, seeds, d) → accs.config ≠ k

/-- `d` is what the upgrade authority signed last for the account at `k`. -/
abbrev InForce (K : Crates) (rt : IntentRuntime) (k : Pubkey) (d : IntentData) :
    List IntentTransition → Prop :=
  Since (Registers K rt k d) (LeavesConfig k)

def IntentData.isNonce : IntentData → Bool
  | .nonce _ => true
  | _ => false

theorem configured_of_executed {act : Action} {e : Execution} (h : act.executed K = some e) :
    act.configured = none := by
  cases act <;> first | rfl | cases h

/-- From genesis on, every stored config is in force. -/
theorem config_in_force (hl : Lawful rt) {w₀ w : IntentWorld} {ts : List IntentTransition}
    (h₀ : Genesis rt w₀) (hr : IntentRun K rt w₀ ts w) {k : Pubkey} {d : IntentData}
    (hk : programAt programId w.accounts k = some d) (hd : d.isNonce = false) :
    InForce K rt k d ts := by
  induction hr with
  | nil => exact absurd (programAt_eq_some.mp hk).1 (h₀.no_account k)
  | @snoc u v act ts hr hst ih =>
      have hmanagers := (settled_of_run hl h₀ hr).1
      cases step_effect hl hmanagers hst with
      | executed e hmessage hnext hwritten =>
          have hne : k ≠ nonceKey rt e.rail.seed e.signed.signer := by
            rintro rfl
            rw [hwritten.after] at hk
            cases hk
            cases hd
          refine (ih ((hwritten.others k hne).symm.trans hk)).later ?_
          intro ctx accs seeds d' hact
          cases hact.symm.trans (configured_of_executed hmessage)
      | configured ctx accs seeds d' hact hmessage hspec =>
          by_cases hkey : accs.config = k
          · subst hkey
            obtain rfl := Option.some.inj (hspec.rewritten.after.symm.trans hk)
            exact .here ts ⟨ctx, accs, seeds, hact, rfl, hspec.checked.authorized⟩
          · refine (ih ((hspec.rewritten.others k (Ne.symm hkey)).symm.trans hk)).later ?_
            intro ctx' accs' seeds' d'' hact'
            cases hact.symm.trans hact'
            exact hkey
      | quiet hmessage hconfig hsame =>
          refine (ih ((hsame k).symm.trans hk)).later ?_
          intro ctx accs seeds d' hact
          cases hact.symm.trans hconfig

/-! ## Fees -/

/-- The fee accounts of an instruction that takes one, the rate of its kind, and what the message
offers. -/
structure FeeTerms where
  accs : FeeAccounts
  rate : FeeConfig → UInt64
  amount : String
  token : SymbolOrMint

def Action.feeTerms (K : Crates) : Action → Option FeeTerms
  | .sendTokens ctx accs =>
    (ctx.intent.toOption.bind (fun signed => messageTryFrom K.intents signed.message)).map
      (fun m => ⟨accs.toFeeAccounts, FeeConfig.intrachainTransferFee, m.feeAmount,
        m.feeSymbolOrMint⟩)
  | .bridgeNttTokens ctx accs _ =>
    (ctx.intent.toOption.bind (fun signed => bridgeMessageTryFrom K.intents signed.message)).map
      (fun | .ntt m => ⟨accs.toFeeAccounts, FeeConfig.bridgeTransferFee, m.feeAmount,
        m.feeSymbolOrMint⟩)
  | _ => none

def feeConfigKey (rt : IntentRuntime) (mint : Pubkey) : Pubkey :=
  (rt.findProgramAddress (feeConfigSeeds mint) programId).1

def expectedNttConfigKey (rt : IntentRuntime) (mint : Pubkey) : Pubkey :=
  (rt.findProgramAddress (expectedNttConfigSeeds mint) programId).1

/-- A fee was taken at the configured rate, in the token and within the amount that the message
offers, for the configured recipient. -/
structure FeeTaken (K : Crates) (rt : IntentRuntime) (ctx : Context) (terms : FeeTerms)
    (w before after : IntentWorld) (c : FeeConfig) (mint : Mint) (offered : UInt64)
    (bump : UInt8) : Prop where
  stored : programAt programId w.accounts (feeConfigKey rt terms.accs.feeMint) = some (.feeConfig c)
  mint_at : mintAt w.accounts terms.accs.feeMint = some mint
  offer : K.tryUiAmountIntoAmount terms.amount mint.decimals = some offered
  within : terms.rate c ≤ offered
  token : verifySymbolOrMint K rt terms.token terms.accs.feeMetadata terms.accs.feeMint before =
    .ok ()
  destination : terms.accs.feeDestination = rt.ata c.feeRecipient terms.accs.feeMint tokenProgram
  transfer : SessionTransferred rt ctx terms.accs.feeSource terms.accs.feeMint
    terms.accs.feeDestination terms.accs.signerOrSession terms.accs.programSigner bump
    (terms.rate c) mint.decimals before after

theorem FeeCollected.taken {ctx : Context} {accs : FeeAccounts} {owner : Pubkey}
    {loaded : FeeLoaded} {rate : FeeConfig → UInt64} {amount : String} {token : SymbolOrMint}
    {w before after : IntentWorld} (hchecked : FeeChecked rt ctx accs owner w loaded)
    (h : FeeCollected K rt ctx accs loaded (rate loaded.config) amount token before after) :
    ∃ offered, FeeTaken K rt ctx ⟨accs, rate, amount, token⟩ w before after loaded.config
      loaded.mint offered loaded.signerBump := by
  obtain ⟨offered, hoffer, hle⟩ := h.covered
  obtain ⟨t, hata⟩ := hchecked.destination
  exact ⟨offered, {
    stored := by
      rw [feeConfigKey, ← hchecked.config.address]
      exact hchecked.config.stored
    mint_at := hchecked.mint
    offer := hoffer
    within := hle
    token := h.token
    destination := hata.address.symm
    transfer := h.transfer }⟩

theorem fee_in_force (hl : Lawful rt) {w₀ w w' : IntentWorld} {ts : List IntentTransition}
    (h₀ : Genesis rt w₀) (hr : IntentRun K rt w₀ ts w) {act : Action} (hstep : Step K rt w act w')
    {terms : FeeTerms} (hterms : act.feeTerms K = some terms) :
    ∃ ctx before after c mint offered bump,
      FeeTaken K rt ctx terms w before after c mint offered bump ∧
      InForce K rt (feeConfigKey rt terms.accs.feeMint) (.feeConfig c) ts := by
  obtain ⟨-, happly⟩ := hstep
  cases act with
  | sendTokens ctx accs =>
      obtain ⟨_, _, _, _, _, _, _, _, _, _, _, hspec⟩ := sendTokens_spec happly
      obtain ⟨offered, htaken⟩ := hspec.fee_collected.taken hspec.fee_checked
      simp only [Action.feeTerms, hspec.intent, Except.toOption, Option.bind_some, hspec.parsed,
        Option.map_some, Option.some.injEq] at hterms
      subst hterms
      exact ⟨_, _, _, _, _, _, _, htaken, config_in_force hl h₀ hr htaken.stored rfl⟩
  | bridgeNttTokens ctx accs args =>
      obtain ⟨_, _, _, _, _, _, _, _, _, _, _, hspec⟩ := bridgeNttTokens_spec happly
      obtain ⟨offered, htaken⟩ := hspec.fee_collected.taken hspec.fee_checked
      simp only [Action.feeTerms, hspec.intent, Except.toOption, Option.bind_some, hspec.parsed,
        Option.map_some, Option.some.injEq] at hterms
      subst hterms
      exact ⟨_, _, _, _, _, _, _, htaken, config_in_force hl h₀ hr htaken.stored rfl⟩
  | _ => cases hterms

end FogoYield.Intent
