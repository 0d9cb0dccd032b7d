import FogoYield.Library.Sequence
import FogoYield.Verification.Intent.BridgeHandler

/-! # What a step does to the accounts of the intent program

Every instruction writes at most one account of the program: a nonce when it executes a signed
message, a config when the upgrade authority has it changed. -/

namespace FogoYield.Intent

open FogoYield.Library FogoYield.Solana

variable {K : Crates} {rt : IntentRuntime}

/-! ## Executed messages -/

/-- The two kinds of message, which are counted apart. -/
inductive Rail where
  | intrachain
  | bridge
  deriving DecidableEq

def Rail.seed : Rail → Bytes
  | .intrachain => intentTransferNonceSeed
  | .bridge => bridgeNttNonceSeed

theorem Rail.seed_inj {r r' : Rail} (h : r.seed = r'.seed) : r = r' := by
  cases r <;> cases r' <;> first | rfl | exact absurd h (by decide)

/-- A signed message that an instruction has executed. -/
structure Execution where
  rail : Rail
  signed : SignedIntent
  nonce : UInt64
  deriving DecidableEq

/-- The counter an executed message moves. -/
def Execution.counter (e : Execution) : Rail × Pubkey := (e.rail, e.signed.signer)

def transferExecution (K : Crates) (signed : SignedIntent) : Option Execution :=
  (messageTryFrom K.intents signed.message).map (fun m => ⟨.intrachain, signed, m.nonce⟩)

def bridgeExecution (K : Crates) (signed : SignedIntent) : Option Execution :=
  (bridgeMessageTryFrom K.intents signed.message).map
    (fun | .ntt m => ⟨.bridge, signed, m.nonce⟩)

/-- The message behind an instruction that executes one. -/
def Action.executed (K : Crates) : Action → Option Execution
  | .sendTokens ctx _ => ctx.intent.toOption.bind (transferExecution K)
  | .sendNative ctx _ => ctx.intent.toOption.bind (transferExecution K)
  | .bridgeNttTokens ctx _ _ => ctx.intent.toOption.bind (bridgeExecution K)
  | _ => none

/-- Where the nonce of a signer stands; one that was never used is created at zero. -/
def nonceAt (rt : IntentRuntime) (w : IntentWorld) (c : Rail × Pubkey) : ℕ :=
  match programAt programId w.accounts (nonceKey rt c.1.seed c.2) with
  | some (.nonce n) => n.toNat
  | _ => 0

theorem nonceAt_of_stored {w : IntentWorld} {c : Rail × Pubkey} {n : UInt64}
    (h : programAt programId w.accounts (nonceKey rt c.1.seed c.2) = some (.nonce n)) :
    nonceAt rt w c = n.toNat := by
  simp [nonceAt, h]

theorem nonceAt_of_none {w : IntentWorld} {c : Rail × Pubkey}
    (h : programAt programId w.accounts (nonceKey rt c.1.seed c.2) = none) :
    nonceAt rt w c = 0 := by
  simp [nonceAt, h]

theorem nonceAt_congr {w w' : IntentWorld} {c : Rail × Pubkey}
    (h : programAt programId w'.accounts (nonceKey rt c.1.seed c.2) =
      programAt programId w.accounts (nonceKey rt c.1.seed c.2)) :
    nonceAt rt w' c = nonceAt rt w c := by
  simp [nonceAt, h]

/-! ## Derived addresses -/

theorem nonceKey_inj (hl : rt.AddressLaws) {c c' : Rail × Pubkey}
    (h : nonceKey rt c.1.seed c.2 = nonceKey rt c'.1.seed c'.2) : c = c' := by
  obtain ⟨hseed, hsigner⟩ := keyed_inj hl h
  exact Prod.ext (Rail.seed_inj hseed) hsigner

theorem Rail.seed_ne_config (r : Rail) : r.seed ≠ feeConfigSeed ∧ r.seed ≠ expectedNttConfigSeed := by
  cases r <;> decide

/-! ## Parts of an instruction -/

/-- The programs the intent program always calls are not itself. -/
theorem tokenProgram_ne : tokenProgram ≠ programId := by decide
theorem systemProgram_ne : systemProgram ≠ programId := by decide
theorem executor_ne : nttWithExecutorProgramId ≠ programId := by decide +kernel

theorem NonceLoaded.count {rail : Rail} {signer k : Pubkey} {n : UInt64} {w w' : IntentWorld}
    (h : NonceLoaded rt rail.seed signer k n w w') : nonceAt rt w (rail, signer) = n.toNat := by
  have haddress := h.address
  rcases h.init with hcreate | ⟨rfl, -⟩
  · have hstored := (Rewritten.of_create hcreate).after
    rw [h.stored] at hstored
    cases hstored
    apply nonceAt_of_none
    rw [← haddress]
    exact hcreate.programAt_none
  · apply nonceAt_of_stored
    rw [← haddress]
    exact h.stored

theorem NonceLoaded.rewritten {seed : Bytes} {signer k : Pubkey} {n : UInt64} {w w' : IntentWorld}
    (h : NonceLoaded rt seed signer k n w w') : Rewritten programId k (.nonce n) w w' := by
  rcases h.init with hcreate | ⟨rfl, -⟩
  · have hstored := (Rewritten.of_create hcreate).after
    rw [h.stored] at hstored
    cases hstored
    exact .of_create hcreate
  · exact .of_sameViews (.refl _ _) h.stored

/-- Creating an account for the tokens of somebody is nothing to the program. -/
theorem sameViews_of_init {k : Pubkey} {t : TokenAccount} {w w' : IntentWorld}
    (h : CreateSpec k tokenProgram (.token t) w w' ∨ w' = w) : SameViews programId w w' := by
  rcases h with hcreate | rfl
  · exact hcreate.sameViews (fun d hd => by cases hd)
  · exact .refl _ _

theorem BurnedAndRelayed.sameViews (hl : rt.CallLaws programId) {ctx : Context} {accs : BridgeNttTokensAccounts}
    {args : BridgeNttTokensArgs} {toChainId : WormholeChainId} {transferArgs : TransferArgs}
    {w w₁ w₂ w₃ : IntentWorld} (hmanager : accs.ntt.nttManager ≠ programId)
    (h : BurnedAndRelayed rt ctx accs args toChainId transferArgs w w₁ w₂ w₃) :
    SameViews programId w w₃ := by
  obtain ⟨relayArgs, -, hrelay⟩ := h.relay
  have hburn := h.burn.call.sameViews hl hmanager
  have hrelease := h.release.call.sameViews hl hmanager
  exact (hburn.trans hrelease).trans (hrelay.call.sameViews hl executor_ne)

/-! ## Effects -/

/-- No stored NTT manager is the program itself. -/
def ForeignManagers (w : IntentWorld) : Prop :=
  ∀ k manager, programAt programId w.accounts k = some (.expectedNttConfig manager) →
    manager ≠ programId

/-- A config instruction, with the seeds of the account it writes and what it writes there. -/
def Action.configured : Action → Option (Context × ConfigAccounts × List Bytes × IntentData)
  | .registerNttConfig ctx accs nttManager =>
    some (ctx, accs, expectedNttConfigSeeds accs.mint, .expectedNttConfig nttManager)
  | .registerFeeConfig ctx accs feeConfig =>
    some (ctx, accs, feeConfigSeeds accs.mint, .feeConfig feeConfig)
  | .updateFeeConfig ctx accs feeConfig =>
    some (ctx, accs, feeConfigSeeds accs.mint, .feeConfig feeConfig)
  | _ => none

/-- What a step does to the accounts of the program. -/
inductive Effect (K : Crates) (rt : IntentRuntime) (act : Action) (w w' : IntentWorld) : Prop where
  /-- It executes a message, under the nonce after the last. -/
  | executed (e : Execution) (message : act.executed K = some e)
      (next : e.nonce.toNat = nonceAt rt w e.counter + 1)
      (written : Rewritten programId (nonceKey rt e.rail.seed e.signed.signer) (.nonce e.nonce) w
        w')
  /-- It changes a config. -/
  | configured (ctx : Context) (accs : ConfigAccounts) (seeds : List Bytes) (d : IntentData)
      (instruction : act.configured = some (ctx, accs, seeds, d)) (message : act.executed K = none)
      (spec : ConfigSpec K rt ctx accs seeds d w w')
  | quiet (message : act.executed K = none) (config : act.configured = none)
      (same : SameViews programId w w')

/-- The nonce as it was read, before it is written back. -/
theorem SendTokensSpec.loaded (hl : rt.CallLaws programId) {ctx : IntentContext}
    {accs : SendTokensAccounts} {w w' : IntentWorld} {signed : SignedIntent} {m : Message}
    {source : TokenAccount} {mint : Mint} {nonce amount : UInt64} {fee : FeeLoaded}
    {w₁ w₂ w₃ w₄ : IntentWorld}
    (h : SendTokensSpec K rt ctx accs w w' signed m source mint nonce amount fee w₁ w₂ w₃ w₄) :
    Rewritten programId accs.nonce (.nonce nonce) w w₄ := by
  have hinit : SameViews programId w w₁ := sameViews_of_init h.destination_init
  have hpaid : SameViews programId w₂ w₄ :=
    (h.transfer.call.sameViews hl tokenProgram_ne).trans
      (h.fee_collected.transfer.call.sameViews hl tokenProgram_ne)
  exact (h.nonce_loaded.rewritten.after_sameViews hinit).then_sameViews hpaid

theorem SendTokensSpec.effect (hl : rt.CallLaws programId) {ctx : IntentContext}
    {accs : SendTokensAccounts} {w w' : IntentWorld} {signed : SignedIntent} {m : Message}
    {source : TokenAccount} {mint : Mint} {nonce amount : UInt64} {fee : FeeLoaded}
    {w₁ w₂ w₃ w₄ : IntentWorld}
    (h : SendTokensSpec K rt ctx accs w w' signed m source mint nonce amount fee w₁ w₂ w₃ w₄) :
    Effect K rt (.sendTokens ctx accs) w w' := by
  have hnonce : NonceLoaded rt Rail.intrachain.seed signed.signer accs.nonce nonce w₁ w₂ :=
    h.nonce_loaded
  have hloaded := h.loaded hl
  refine .executed ⟨.intrachain, signed, m.nonce⟩ ?_ ?_ ?_
  · simp [Action.executed, h.intent, transferExecution, h.parsed, Except.toOption]
  · have hcount : nonceAt rt w (.intrachain, signed.signer) =
        nonceAt rt w₁ (.intrachain, signed.signer) :=
      (nonceAt_congr (sameViews_of_init h.destination_init _)).symm
    rw [h.next, ← hnonce.count, ← hcount]
    rfl
  · rw [h.result]
    exact hnonce.address ▸ hloaded.trans (.of_setAccount hloaded.after)

theorem SendNativeSpec.effect (hl : rt.CallLaws programId) {ctx : IntentContext}
    {accs : SendNativeAccounts} {w w' : IntentWorld} {signed : SignedIntent} {m : Message}
    {nonce amount : UInt64} {w₁ w₂ : IntentWorld}
    (h : SendNativeSpec K rt ctx accs w w' signed m nonce amount w₁ w₂) :
    Effect K rt (.sendNative ctx accs) w w' := by
  have hnonce : NonceLoaded rt Rail.intrachain.seed signed.signer accs.nonce nonce w w₁ :=
    h.nonce_loaded
  obtain ⟨bump, htransfer⟩ := h.transfer
  have hloaded : Rewritten programId accs.nonce (.nonce nonce) w w₂ :=
    hnonce.rewritten.then_sameViews (htransfer.call.sameViews hl systemProgram_ne)
  refine .executed ⟨.intrachain, signed, m.nonce⟩ ?_ ?_ ?_
  · simp [Action.executed, h.intent, transferExecution, h.parsed, Except.toOption]
  · rw [h.next, ← hnonce.count]
    rfl
  · rw [h.result]
    exact hnonce.address ▸ hloaded.trans (.of_setAccount hloaded.after)

theorem BridgeSpec.loaded (hl : rt.CallLaws programId) {ctx : IntentContext}
    {accs : BridgeNttTokensAccounts} {args : BridgeNttTokensArgs} {w w' : IntentWorld}
    {signed : SignedIntent} {m : NttMessage} {source intermediate : TokenAccount} {mint : Mint}
    {nonce : UInt64} {fee : FeeLoaded} {setterBump : UInt8} {toChainId : WormholeChainId}
    {transferArgs : TransferArgs} {st : BridgeStates} (hmanager : accs.ntt.nttManager ≠ programId)
    (h : BridgeSpec K rt ctx accs args w w' signed m source intermediate mint nonce fee setterBump
      toChainId transferArgs st) :
    Rewritten programId accs.nonce (.nonce nonce) w st.collected := by
  have hinit : SameViews programId w st.opened :=
    sameViews_of_init (h.intermediate_loaded.init.imp_right And.left)
  have happroved : SameViews programId st.counted st.approved :=
    (h.transfer.call.sameViews hl tokenProgram_ne).trans
      (h.approval.call.sameViews hl tokenProgram_ne)
  have hclosed : SameViews programId st.relayed st.closed :=
    h.closing.call.sameViews hl tokenProgram_ne
  have hpaid : SameViews programId st.counted st.collected :=
    ((happroved.trans (h.relayed.sameViews hl hmanager)).trans hclosed).trans
      (h.fee_collected.transfer.call.sameViews hl tokenProgram_ne)
  exact (h.nonce_loaded.rewritten.after_sameViews hinit).then_sameViews hpaid

theorem BridgeSpec.effect (hl : rt.CallLaws programId) {ctx : IntentContext}
    {accs : BridgeNttTokensAccounts} {args : BridgeNttTokensArgs} {w w' : IntentWorld}
    {signed : SignedIntent} {m : NttMessage} {source intermediate : TokenAccount} {mint : Mint}
    {nonce : UInt64} {fee : FeeLoaded} {setterBump : UInt8} {toChainId : WormholeChainId}
    {transferArgs : TransferArgs} {st : BridgeStates} (hmanager : accs.ntt.nttManager ≠ programId)
    (h : BridgeSpec K rt ctx accs args w w' signed m source intermediate mint nonce fee setterBump
      toChainId transferArgs st) :
    Effect K rt (.bridgeNttTokens ctx accs args) w w' := by
  have hnonce : NonceLoaded rt Rail.bridge.seed signed.signer accs.nonce nonce st.opened
      st.counted := h.nonce_loaded
  have hloaded := h.loaded hl hmanager
  refine .executed ⟨.bridge, signed, m.nonce⟩ ?_ ?_ ?_
  · simp [Action.executed, h.intent, bridgeExecution, h.parsed, Except.toOption]
  · have hcount : nonceAt rt w (.bridge, signed.signer) =
        nonceAt rt st.opened (.bridge, signed.signer) :=
      (nonceAt_congr (sameViews_of_init (h.intermediate_loaded.init.imp_right And.left) _)).symm
    rw [h.next, ← hnonce.count, ← hcount]
    rfl
  · rw [h.result]
    exact hnonce.address ▸ hloaded.trans (.of_setAccount hloaded.after)

/-- What a step can do, once for all instructions. -/
theorem step_effect (hl : Lawful rt) {w w' : IntentWorld} {act : Action} (hw : ForeignManagers w)
    (h : Step K rt w act w') : Effect K rt act w w' := by
  obtain ⟨hpossible, happly⟩ := h
  cases act with
  | sendTokens ctx accs =>
      obtain ⟨_, _, _, _, _, _, _, _, _, _, _, hspec⟩ := sendTokens_spec happly
      exact hspec.effect hl.cpi
  | sendNative ctx accs =>
      obtain ⟨_, _, _, _, _, _, hspec⟩ := sendNative_spec happly
      exact hspec.effect hl.cpi
  | bridgeNttTokens ctx accs args =>
      obtain ⟨_, _, _, _, _, _, _, _, _, _, _, hspec⟩ := bridgeNttTokens_spec happly
      exact hspec.effect hl.cpi (hw _ _ hspec.manager)
  | registerNttConfig ctx accs nttManager =>
      exact .configured _ _ _ _ rfl rfl (registerNttConfig_spec happly)
  | registerFeeConfig ctx accs feeConfig =>
      exact .configured _ _ _ _ rfl rfl (registerFeeConfig_spec happly)
  | updateFeeConfig ctx accs feeConfig =>
      exact .configured _ _ _ _ rfl rfl (updateFeeConfig_spec happly)
  | external ix =>
      refine .quiet rfl rfl ?_
      simp only [Action.apply, runExternal] at happly
      split at happly
      · rename_i a ha
        obtain rfl := Except.ok.inj happly
        exact hl.cpi.programAt_eq ha hpossible.1
      · cases happly
  | tick clock =>
      obtain rfl := Except.ok.inj happly
      exact .quiet rfl rfl (fun _ => rfl)

/-- No step registers the program as a manager. -/
theorem foreignManagers_step (hl : Lawful rt) {w w' : IntentWorld} {act : Action}
    (hw : ForeignManagers w) (h : Step K rt w act w') : ForeignManagers w' := by
  intro k manager hk
  cases step_effect hl hw h with
  | executed e hmessage hnext hwritten =>
      by_cases hkey : k = nonceKey rt e.rail.seed e.signed.signer
      · rw [hkey, hwritten.after] at hk
        cases hk
      · exact hw k manager ((hwritten.others k hkey).symm.trans hk)
  | configured ctx accs seeds d hinstruction hmessage hspec =>
      by_cases hkey : k = accs.config
      · rw [hkey, hspec.rewritten.after] at hk
        cases act with
        | registerNttConfig ctx accs nttManager =>
            cases hinstruction
            cases hk
            exact h.1.2
        | registerFeeConfig ctx accs feeConfig =>
            cases hinstruction
            cases hk
        | updateFeeConfig ctx accs feeConfig =>
            cases hinstruction
            cases hk
        | _ => cases hinstruction
      · exact hw k manager ((hspec.rewritten.others k hkey).symm.trans hk)
  | quiet hmessage hconfig hsame => exact hw k manager ((hsame k).symm.trans hk)

theorem Genesis.foreignManagers {w : IntentWorld} (h : Genesis rt w) : ForeignManagers w := by
  intro k manager hk
  exact absurd (programAt_eq_some.mp hk).1 (h.no_account k)

/-- A run, with the invariant that its calls of NTT managers rely on. -/
theorem run_foreignManagers (hl : Lawful rt) {w₀ w : IntentWorld} {ts : List IntentTransition}
    (h₀ : ForeignManagers w₀) (hr : IntentRun K rt w₀ ts w) :
    Run (fun w a w' => ForeignManagers w ∧ Step K rt w a w') w₀ ts w :=
  hr.strengthen h₀ (fun _ _ _ hw hstep => foreignManagers_step hl hw hstep)

end FogoYield.Intent
