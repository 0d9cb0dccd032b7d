import FogoYield.Library.Postings
import FogoYield.Verification.Intent.ReferenceChain

/-! # The ledger of the signed messages

What a step posts follows from the message it executes and the config in force. The balance of an
account that nobody else was given to write is what the messages posted, over any run. -/

namespace FogoYield.Intent

open FogoYield.Library FogoYield.Solana

variable {K : Crates} {rt : IntentRuntime}

/-! ## Postings of an instruction -/

/-- The amount a message names, in units of `mint`. -/
def amountPosting (K : Crates) (w : IntentWorld) (source mint dest : Pubkey) (amount : String) :
    List (Posting Pubkey) :=
  match (mintAt w.accounts mint).bind (fun m => K.tryUiAmountIntoAmount amount m.decimals) with
  | some n => [⟨source, dest, n.toNat⟩]
  | none => []

/-- The fee that the config in force names. -/
def feePosting (w : IntentWorld) (accs : FeeAccounts) (fee : FeeConfig → UInt64) :
    List (Posting Pubkey) :=
  match programAt programId w.accounts accs.feeConfig with
  | some (.feeConfig c) => [⟨accs.feeSource, accs.feeDestination, (fee c).toNat⟩]
  | _ => []

/-- What a step moves between token accounts on behalf of a signer. -/
def postings (K : Crates) (tr : IntentTransition) : List (Posting Pubkey) :=
  match tr.act with
  | .sendTokens ctx accs =>
    match ctx.intent.toOption.bind (fun signed => messageTryFrom K.intents signed.message) with
    | some m => amountPosting K tr.pre accs.source accs.mint accs.destination m.amount ++
        feePosting tr.pre accs.toFeeAccounts FeeConfig.intrachainTransferFee
    | none => []
  | .bridgeNttTokens ctx accs _ =>
    match ctx.intent.toOption.bind
        (fun signed => bridgeMessageTryFrom K.intents signed.message) with
    | some (.ntt m) =>
      amountPosting K tr.pre accs.source accs.mint accs.intermediateTokenAccount m.amount ++
        feePosting tr.pre accs.toFeeAccounts FeeConfig.bridgeTransferFee
    | none => []
  | _ => []

/-- The accounts that the calls of the NTT manager and the executor may write. -/
def bridgeWrites (accs : BridgeNttTokensAccounts) : List Pubkey :=
  [accs.sponsor, accs.mint, accs.intermediateTokenAccount, accs.ntt.nttOutboxItem,
    accs.ntt.nttOutboxRateLimit, accs.ntt.nttCustody, accs.ntt.nttInboxRateLimit,
    accs.ntt.wormholeMessage, accs.ntt.wormholeBridge, accs.ntt.wormholeFeeCollector,
    accs.ntt.wormholeSequence, accs.ntt.payeeNttWithExecutor]

/-- Nobody but the intent program itself was given `k` to write. -/
def Undisturbed (k : Pubkey) (tr : IntentTransition) : Prop :=
  match tr.act with
  | .external ix => ¬ ix.Writes k
  | .bridgeNttTokens _ accs _ => k ∉ bridgeWrites accs
  | _ => True

/-! ## Parts of an instruction -/

theorem NonceLoaded.sameBalances {seed : Bytes} {owner k : Pubkey} {n : UInt64}
    {w w' : IntentWorld} (h : NonceLoaded rt seed owner k n w w') :
    SameBalances w.accounts w'.accounts := by
  rcases h.init with hcreate | ⟨rfl, -⟩
  · exact hcreate.sameBalances (fun t ht => by cases ht)
  · exact fun _ => rfl

theorem sameBalances_of_init {k mint owner : Pubkey} {w w' : IntentWorld}
    (h : CreateSpec k tokenProgram (.token ⟨mint, owner, 0, none, 0, none⟩) w w' ∨ w' = w) :
    SameBalances w.accounts w'.accounts := by
  rcases h with hcreate | rfl
  · apply hcreate.sameBalances
    rintro t ⟨⟩
    rfl
  · exact fun _ => rfl

/-- An account of the program holds no tokens, whatever is written there. -/
theorem sameBalances_writeAccount {k : Pubkey} {d d' : IntentData} {w : IntentWorld}
    (h : programAt programId w.accounts k = some d) :
    SameBalances w.accounts (writeAccount k d' w).accounts := by
  have howner := (programAt_eq_some.mp h).1
  have hnot : ¬ IsTokenProgram programId := by decide
  intro j
  by_cases hj : j = k
  · subst hj
    have hbefore : tokenAt w.accounts j = none := by
      simp [tokenAt, howner, hnot]
    have hafter : tokenAt (writeAccount j d' w).accounts j = none := by
      simp [tokenAt, writeAccount, World.setAccount, howner, hnot]
    rw [balance_of_none hbefore, balance_of_none hafter]
  · exact (writeAccount_others d' w hj).balance

/-- A transfer on the session rail is one posting. -/
theorem booked_transfer (hl : RailLaws rt) {ctx : Context}
    {source mint dest authority programSigner : Pubkey} {bump : UInt8} {amount : UInt64}
    {decimals : UInt8} {w w' : IntentWorld}
    (h : SessionTransferred rt ctx source mint dest authority programSigner bump amount decimals w
      w') (k : Pubkey) :
    Booked k [⟨source, dest, amount.toNat⟩] (balance w.accounts k) (balance w'.accounts k) := by
  have hmoved := (hl.transfer h.call.invoked).balance_eq k
  simpa [Booked, debits, credits, eq_comm] using hmoved

theorem booked_of_sameBalances {k : Pubkey} {ps : List (Posting Pubkey)}
    {a a₁ a₂ a' : IntentAccounts} (hbefore : SameBalances a a₁)
    (h : Booked k ps (balance a₁ k) (balance a₂ k)) (hafter : balance a' k = balance a₂ k) :
    Booked k ps (balance a k) (balance a' k) := by
  rw [hafter, ← hbefore k]
  exact h

theorem amountPosting_eq {w : IntentWorld} {source mint dest : Pubkey} {text : String} {m : Mint}
    {amount : UInt64} (hm : mintAt w.accounts mint = some m)
    (ha : K.tryUiAmountIntoAmount text m.decimals = some amount) :
    amountPosting K w source mint dest text = [⟨source, dest, amount.toNat⟩] := by
  simp [amountPosting, hm, ha]

theorem feePosting_eq {ctx : Context} {accs : FeeAccounts} {owner : Pubkey} {w : IntentWorld}
    {loaded : FeeLoaded} (h : FeeChecked rt ctx accs owner w loaded) (fee : FeeConfig → UInt64) :
    feePosting w accs fee = [⟨accs.feeSource, accs.feeDestination, (fee loaded.config).toNat⟩] := by
  simp [feePosting, h.config.stored]

/-! ## Steps -/

theorem SendTokensSpec.postings_eq {ctx : IntentContext} {accs : SendTokensAccounts}
    {w w' : IntentWorld} {signed : SignedIntent} {m : Message} {source : TokenAccount} {mint : Mint}
    {nonce amount : UInt64} {fee : FeeLoaded} {w₁ w₂ w₃ w₄ : IntentWorld}
    (h : SendTokensSpec K rt ctx accs w w' signed m source mint nonce amount fee w₁ w₂ w₃ w₄) :
    postings K ⟨w, .sendTokens ctx accs, w'⟩ =
      [⟨accs.source, accs.destination, amount.toNat⟩] ++
        [⟨accs.feeSource, accs.feeDestination, fee.config.intrachainTransferFee.toNat⟩] := by
  simp only [postings, h.intent, Except.toOption, Option.bind_some, h.parsed,
    amountPosting_eq h.mint_at h.amount_eq, feePosting_eq h.fee_checked]

theorem SendTokensSpec.booked (hl : Lawful rt) {ctx : IntentContext} {accs : SendTokensAccounts}
    {w w' : IntentWorld} {signed : SignedIntent} {m : Message} {source : TokenAccount} {mint : Mint}
    {nonce amount : UInt64} {fee : FeeLoaded} {w₁ w₂ w₃ w₄ : IntentWorld}
    (h : SendTokensSpec K rt ctx accs w w' signed m source mint nonce amount fee w₁ w₂ w₃ w₄) (k : Pubkey) :
    Booked k (postings K ⟨w, .sendTokens ctx accs, w'⟩) (balance w.accounts k)
      (balance w'.accounts k) := by
  have hbefore : SameBalances w.accounts w₂.accounts :=
    (sameBalances_of_init h.destination_init).trans h.nonce_loaded.sameBalances
  rw [h.postings_eq]
  refine booked_of_sameBalances hbefore
    ((booked_transfer hl.rail h.transfer k).append
      (booked_transfer hl.rail h.fee_collected.transfer k)) ?_
  rw [h.result]
  exact sameBalances_writeAccount (h.loaded hl.cpi).after k

theorem BridgeSpec.postings_eq {ctx : IntentContext} {accs : BridgeNttTokensAccounts}
    {args : BridgeNttTokensArgs} {w w' : IntentWorld} {signed : SignedIntent} {m : NttMessage}
    {source intermediate : TokenAccount} {mint : Mint} {nonce : UInt64} {fee : FeeLoaded}
    {setterBump : UInt8} {toChainId : WormholeChainId} {transferArgs : TransferArgs}
    {st : BridgeStates}
    (h : BridgeSpec K rt ctx accs args w w' signed m source intermediate mint nonce fee setterBump
      toChainId transferArgs st) :
    postings K ⟨w, .bridgeNttTokens ctx accs args, w'⟩ =
      [⟨accs.source, accs.intermediateTokenAccount, transferArgs.amount.toNat⟩] ++
        [⟨accs.feeSource, accs.feeDestination, fee.config.bridgeTransferFee.toNat⟩] := by
  simp only [postings, h.intent, Except.toOption, Option.bind_some, h.parsed,
    amountPosting_eq h.mint_at h.amount, feePosting_eq h.fee_checked]

theorem not_writes {accounts : List AccountMeta} {pid k : Pubkey} {data : Bytes}
    {ks : List Pubkey} (hsub : ∀ m ∈ accounts, m.isWritable = true → m.pubkey ∈ ks)
    (hk : k ∉ ks) : ¬ Instruction.Writes ⟨pid, accounts, data⟩ k := by
  rintro ⟨m, hm, rfl, hw⟩
  exact hk (hsub m hm hw)

/-- The calls that take the tokens over the bridge leave every other account alone. -/
theorem BurnedAndRelayed.frame (hl : rt.CallLaws programId) {ctx : Context}
    {accs : BridgeNttTokensAccounts} {args : BridgeNttTokensArgs} {toChainId : WormholeChainId}
    {transferArgs : TransferArgs} {w w₁ w₂ w₃ : IntentWorld}
    (h : BurnedAndRelayed rt ctx accs args toChainId transferArgs w w₁ w₂ w₃) {k : Pubkey}
    (hk : k ∉ bridgeWrites accs) : w₃.accounts k = w.accounts k := by
  obtain ⟨relayArgs, -, hrelay⟩ := h.relay
  have hburn : w₁.accounts k = w.accounts k :=
    hl.frame h.burn.call.invoked k (not_writes (by simp [signer, writable, readonly, bridgeWrites]) hk)
  have hrelease : w₂.accounts k = w₁.accounts k :=
    hl.frame h.release.call.invoked k
      (not_writes (by simp [signer, writable, readonly, bridgeWrites]) hk)
  have hpaid : w₃.accounts k = w₂.accounts k :=
    hl.frame hrelay.call.invoked k
      (not_writes (by simp [signer, writable, readonly, bridgeWrites]) hk)
  rw [hpaid, hrelease, hburn]

theorem BridgeSpec.booked (hl : Lawful rt) {ctx : IntentContext} {accs : BridgeNttTokensAccounts}
    {args : BridgeNttTokensArgs} {w w' : IntentWorld} {signed : SignedIntent} {m : NttMessage}
    {source intermediate : TokenAccount} {mint : Mint} {nonce : UInt64} {fee : FeeLoaded}
    {setterBump : UInt8} {toChainId : WormholeChainId} {transferArgs : TransferArgs}
    {st : BridgeStates}
    (h : BridgeSpec K rt ctx accs args w w' signed m source intermediate mint nonce fee setterBump
      toChainId transferArgs st)
    (hmanager : accs.ntt.nttManager ≠ programId) {k : Pubkey} (hk : k ∉ bridgeWrites accs) :
    Booked k (postings K ⟨w, .bridgeNttTokens ctx accs args, w'⟩) (balance w.accounts k)
      (balance w'.accounts k) := by
  obtain ⟨t, hclosed⟩ := hl.rail.close h.closing.call.invoked
  have hinter : k ≠ accs.intermediateTokenAccount := by
    rintro rfl
    exact hk (by simp [bridgeWrites])
  have hbefore : SameBalances w.accounts st.counted.accounts :=
    (sameBalances_of_init (h.intermediate_loaded.init.imp_right And.left)).trans
      h.nonce_loaded.sameBalances
  -- between the transfer and the fee, only accounts the calls write change their balance
  have hquiet : balance st.closed.accounts k = balance st.funded.accounts k := by
    calc balance st.closed.accounts k
        = balance st.relayed.accounts k := hclosed.balance_eq hinter
      _ = balance st.approved.accounts k := balance_congr (h.relayed.frame hl.cpi hk)
      _ = balance st.funded.accounts k :=
        approve_balance (hl.rail.approve h.approval.call.invoked) k
  have htransfer := booked_transfer hl.rail h.transfer k
  have hfee := booked_transfer hl.rail h.fee_collected.transfer k
  rw [hquiet] at hfee
  rw [h.postings_eq]
  refine booked_of_sameBalances hbefore (htransfer.append hfee) ?_
  rw [h.result]
  exact sameBalances_writeAccount (h.loaded hl.cpi hmanager).after k

theorem SendNativeSpec.sameBalances (hl : Lawful rt) {ctx : IntentContext}
    {accs : SendNativeAccounts} {w w' : IntentWorld} {signed : SignedIntent} {m : Message}
    {nonce amount : UInt64} {w₁ w₂ : IntentWorld}
    (h : SendNativeSpec K rt ctx accs w w' signed m nonce amount w₁ w₂) :
    SameBalances w.accounts w'.accounts := by
  obtain ⟨bump, htransfer⟩ := h.transfer
  have hmoved : SameBalances w₁.accounts w₂.accounts := by
    intro k
    cases hl.rail.native htransfer.call.invoked with
    | within hsame heq => rw [heq]
    | between hne enough result =>
        rw [result, (setLamports_sameData _ _ _ k).balance, (setLamports_sameData _ _ _ k).balance]
  have hstored : programAt programId w₂.accounts accs.nonce = some (.nonce nonce) :=
    (htransfer.call.sameViews hl.cpi systemProgram_ne _).trans h.nonce_loaded.stored
  rw [h.result]
  exact (h.nonce_loaded.sameBalances.trans hmoved).trans (sameBalances_writeAccount hstored)

theorem ConfigSpec.sameBalances {ctx : Context} {accs : ConfigAccounts} {seeds : List Bytes}
    {d : IntentData} {w w' : IntentWorld} (h : ConfigSpec K rt ctx accs seeds d w w') :
    SameBalances w.accounts w'.accounts := by
  have hnot : ¬ IsTokenProgram programId := by decide
  intro j
  by_cases hj : j = accs.config
  · subst hj
    have hbefore : tokenAt w.accounts accs.config = none := by
      rcases h.config_owner with howner | howner <;>
        simp [tokenAt, howner, hnot, not_isTokenProgram_systemProgram]
    have hafter : tokenAt w'.accounts accs.config = none := by
      simp [tokenAt, (programAt_eq_some.mp h.rewritten.after).1, hnot]
    rw [balance_of_none hbefore, balance_of_none hafter]
  · exact (h.others j hj).balance

theorem step_booked (hl : Lawful rt) {w w' : IntentWorld} {act : Action}
    (hw : ForeignManagers w) (h : Step K rt w act w') {k : Pubkey}
    (hk : Undisturbed k ⟨w, act, w'⟩) :
    Booked k (postings K ⟨w, act, w'⟩) (balance w.accounts k) (balance w'.accounts k) := by
  obtain ⟨-, happly⟩ := h
  cases act with
  | sendTokens ctx accs =>
      obtain ⟨_, _, _, _, _, _, _, _, _, _, _, hspec⟩ := sendTokens_spec happly
      exact hspec.booked hl k
  | sendNative ctx accs =>
      obtain ⟨_, _, _, _, _, _, hspec⟩ := sendNative_spec happly
      exact .of_eq (hspec.sameBalances hl k)
  | bridgeNttTokens ctx accs args =>
      obtain ⟨_, _, _, _, _, _, _, _, _, _, _, hspec⟩ := bridgeNttTokens_spec happly
      exact hspec.booked hl (hw _ _ hspec.manager) hk
  | registerNttConfig ctx accs nttManager =>
      exact .of_eq ((registerNttConfig_spec happly).sameBalances k)
  | registerFeeConfig ctx accs feeConfig =>
      exact .of_eq ((registerFeeConfig_spec happly).sameBalances k)
  | updateFeeConfig ctx accs feeConfig =>
      exact .of_eq ((updateFeeConfig_spec happly).sameBalances k)
  | external ix =>
      apply Booked.of_eq
      simp only [Action.apply, runExternal] at happly
      split at happly
      · rename_i a ha
        obtain rfl := Except.ok.inj happly
        exact balance_congr (hl.cpi.frame ha k hk)
      · cases happly
  | tick clock =>
      obtain rfl := Except.ok.inj happly
      exact .of_eq rfl

/-- Whatever is posted comes out of an account of the wallet that signed the message. -/
theorem postings_signed {w w' : IntentWorld} {act : Action} (h : Step K rt w act w')
    {p : Posting Pubkey} (hp : p ∈ postings K ⟨w, act, w'⟩) :
    ∃ e t, act.executed K = some e ∧ tokenAt w.accounts p.source = some t ∧
      t.owner = e.signed.signer := by
  obtain ⟨-, happly⟩ := h
  cases act with
  | sendTokens ctx accs =>
      obtain ⟨signed, m, _, _, _, _, _, _, _, _, _, hspec⟩ := sendTokens_spec happly
      have hexecuted : (Action.sendTokens ctx accs).executed K = some ⟨.intrachain, signed, m.nonce⟩ := by
        simp [Action.executed, hspec.intent, transferExecution, hspec.parsed, Except.toOption]
      obtain ⟨fee, hfee, -, howner⟩ := hspec.fee_checked.source
      rw [hspec.postings_eq] at hp
      simp only [List.cons_append, List.nil_append, List.mem_cons, List.not_mem_nil,
        or_false] at hp
      rcases hp with rfl | rfl
      · exact ⟨_, _, hexecuted, hspec.source_at, hspec.source_owner⟩
      · exact ⟨_, _, hexecuted, hfee, howner⟩
  | bridgeNttTokens ctx accs args =>
      obtain ⟨signed, m, _, _, _, _, _, _, _, _, _, hspec⟩ := bridgeNttTokens_spec happly
      have hexecuted : (Action.bridgeNttTokens ctx accs args).executed K =
          some ⟨.bridge, signed, m.nonce⟩ := by
        simp [Action.executed, hspec.intent, bridgeExecution, hspec.parsed, Except.toOption]
      obtain ⟨fee, hfee, -, howner⟩ := hspec.fee_checked.source
      rw [hspec.postings_eq] at hp
      simp only [List.cons_append, List.nil_append, List.mem_cons, List.not_mem_nil,
        or_false] at hp
      rcases hp with rfl | rfl
      · exact ⟨_, _, hexecuted, hspec.source_at, hspec.source_owner⟩
      · exact ⟨_, _, hexecuted, hfee, howner⟩
  | _ => cases hp

/-! ## Runs -/

/-- Over any run, an account that nobody else was given to write holds what it held, less the
amounts and fees of the messages executed against it, and what they sent it; and all that left an
account was signed for by its owner. -/
theorem ledger_of_run (hl : Lawful rt) {w₀ w : IntentWorld} {ts : List IntentTransition}
    (h₀ : ForeignManagers w₀) (hr : IntentRun K rt w₀ ts w) {k : Pubkey}
    (hk : ∀ tr ∈ ts, Undisturbed k tr) :
    Booked k (ts.flatMap (postings K)) (balance w₀.accounts k) (balance w.accounts k) ∧
      ∀ tr ∈ ts, ∀ p ∈ postings K tr, ∃ e t, tr.act.executed K = some e ∧
        tokenAt tr.pre.accounts p.source = some t ∧ t.owner = e.signed.signer := by
  constructor
  · have hstep : ∀ u act v, ForeignManagers u ∧ Step K rt u act v → Undisturbed k ⟨u, act, v⟩ →
        Booked k (postings K ⟨u, act, v⟩) (balance u.accounts k) (balance v.accounts k) := by
      rintro u act v ⟨hu, hstep⟩ hundisturbed
      exact step_booked hl hu hstep hundisturbed
    exact (run_foreignManagers hl h₀ hr).booked hstep hk
  · intro tr htr p hp
    obtain ⟨before, after, rfl⟩ := List.append_of_mem htr
    obtain ⟨-, hstep, -⟩ := hr.split
    exact postings_signed hstep hp

theorem ledger_of_run_reference :
    ∃ ts w, IntentRun referenceCrates referenceRuntime genesis ts w ∧
      ts.map Transition.act = referenceActions ∧
      Booked walletTokens (ts.flatMap (postings referenceCrates)) 25000000 11150000 := by
  obtain ⟨ts, w, hr, hacts, harrived⟩ := reference_run
  have hundisturbed : ∀ act ∈ referenceActions, ∀ u v,
      Undisturbed walletTokens ⟨u, act, v⟩ := by
    intro act hact u v
    simp only [referenceActions, List.mem_cons, List.not_mem_nil, or_false] at hact
    rcases hact with rfl | rfl | rfl | rfl | rfl
    · trivial
    · trivial
    · trivial
    · trivial
    · show walletTokens ∉ bridgeWrites bridgeAccounts
      decide +kernel
  obtain ⟨hbooked, -⟩ := ledger_of_run referenceRuntime_lawful genesis_ok.foreignManagers hr
    (k := walletTokens)
    (fun tr htr => hundisturbed tr.act (hacts ▸ List.mem_map_of_mem htr) tr.pre tr.post)
  rw [harrived.wallet_balance] at hbooked
  exact ⟨ts, w, hr, hacts, hbooked⟩

end FogoYield.Intent
